import MatrixRtc.MemberIngest

/-!
# What counts as a join

The member contents that are read as a join, of those that parse. A derived structure is
read from an object by name or from an array in order, and only what an object leaves out
is ever inferred.
-/
namespace MatrixRtc.JoinedContents
open JsonValues MemberEvents MemberContents MemberIngest

/-- A non-empty string. -/
def stated : Option Json → Bool
  | some (.str s) => !s.isEmpty
  | _ => false

/-- `join`, as a string or as an object of that one `null` field. -/
def namesJoin : Option Json → Bool
  | some (.str s) => s = "join"
  | some (.obj [(name, .null)]) => name = "join"
  | _ => false

/-- The fields of a content, in order. -/
def contentOrder : List String :=
  ["slot_id", "msc4354_sticky_key", "member", "application", "transports", "leave_reason",
    "created_ts"]

def contentField (content : Json) (name : String) : Option Json :=
  (structFields contentOrder content).bind (· name)

/-- A field of what `member` may be read from. -/
def fieldOf (member : Option Json) (name : String) : Option Json :=
  member.bind fun m => (structFields ["id", "membership"] m).bind (· name)

theorem fieldOf_obj (member : List (String × Json)) (name : String) :
    fieldOf (some (.obj member)) name = member.lookup name := rfl

def memberField (content : Json) (name : String) : Option Json :=
  fieldOf (contentField content "member") name

/-- The sticky key, under either spelling. -/
def stickyKey (content : Json) : Option Json :=
  (contentField content "msc4354_sticky_key").or (contentField content "sticky_key")

/-- A member object of a content object states no membership. -/
def silent (content : Json) : Bool :=
  match content with
  | .obj object =>
      match object.lookup "member" with
      | some (.obj member) => (member.lookup "membership").isNone
      | _ => false
  | _ => false

/-- What a content must state to join, besides parsing. -/
structure StatesJoin (content : Json) : Prop where
  slotId : stated (contentField content "slot_id") = true
  key : stated (stickyKey content) = true
  keysAgree : ∀ unstable ∈ contentField content "msc4354_sticky_key",
    ∀ stable ∈ contentField content "sticky_key", unstable = stable
  memberId : stated (memberField content "id") = true
  application : stated ((contentField content "application").bind (·.get "type")) = true
  membership : namesJoin (memberField content "membership") = true ∨ silent content = true

section
variable {o : Option Json}

theorem stated_of_optional {id : Option String} (h : MemberContents.optional Json.asStr o = some id) :
    stated o = id.any fun s => !s.isEmpty := by
  cases o with
  | none =>
      cases h
      rfl
  | some v =>
      cases v <;> cases h <;> rfl

/-- The unit variants of a membership. -/
def tagged (s : String) : Option Membership :=
  if s = "join" then some .join else if s = "leave" then some .leave else none

theorem tagged_join (s : String) : (tagged s == some .join) = decide (s = "join") := by
  unfold tagged
  split_ifs with join leave <;> simp [join]

theorem namesJoin_of_optional {membership : Option Membership}
    (h : MemberContents.optional parseMembership o = some membership) :
    namesJoin o = (membership == some .join) := by
  cases o with
  | none =>
      cases h
      rfl
  | some v =>
      cases v with
      | null =>
          cases h
          rfl
      | str s =>
          cases h
          rw [namesJoin, ← tagged_join]
          change _ = (some ((tagged s).getD (.unknown s)) == some .join)
          cases tagged s <;> rfl
      | obj fields =>
          match fields with
          | [(name, .null)] =>
              obtain ⟨m, is_tagged, rfl⟩ := Option.map_eq_some_iff.mp h
              have is_tagged : tagged name = some m := is_tagged
              rw [namesJoin, ← tagged_join, is_tagged]
          | [] | [(_, .bool _)] | [(_, .num _)] | [(_, .str _)] | [(_, .arr _)] | [(_, .obj _)] =>
              cases h
          | _ :: _ :: _ => simp [MemberContents.optional, defaulted, nullable, parseMembership,
              variant] at h
      | bool | num | arr => cases h

theorem parseMember_spec {member : MemberInfo}
    (h : defaulted parseMemberInfo ⟨none, none⟩ o = some member) :
    stated (fieldOf o "id") = (member.id.any fun id => !id.isEmpty) ∧
      namesJoin (fieldOf o "membership") = (member.membership == some .join) := by
  cases o with
  | none =>
      cases h
      exact ⟨rfl, rfl⟩
  | some v =>
      have h : parseMemberInfo v = some member := h
      unfold parseMemberInfo at h
      simp only [Option.bind_eq_bind, Option.bind_eq_some_iff] at h
      obtain ⟨field, is_field, id, is_id, membership, is_membership, made⟩ := h
      cases made
      have named (name : String) : fieldOf (some v) name = field name := by
        rw [fieldOf, Option.bind_some, is_field, Option.bind_some]
      rw [named, named]
      exact ⟨stated_of_optional is_id, namesJoin_of_optional is_membership⟩

theorem parseApplication_spec {application : ApplicationInfo}
    (h : defaulted parseApplicationInfo ⟨none, []⟩ o = some application) :
    stated (o.bind (·.get "type")) = application.applicationType.isSome := by
  cases o with
  | none =>
      cases h
      rfl
  | some v =>
      have h : parseApplicationInfo v = some application := h
      unfold parseApplicationInfo at h
      simp only [Option.bind_eq_bind, Option.bind_eq_some_iff] at h
      obtain ⟨fields, is_object, type, is_type, made⟩ := h
      cases made
      have get : v.get "type" = fields.lookup "type" := by rw [Json.get, is_object, Option.bind_some]
      rw [Option.bind_some, get, stated_of_optional is_type, ApplicationInfo.applicationType]
      cases type with
      | none => rfl
      | some type => cases empty : type.isEmpty <;> simp [Option.filter, empty]

theorem stated_of_str {s : String} (h : o.bind Json.asStr = some s) :
    stated o = !s.isEmpty := by
  obtain ⟨v, rfl, is_str⟩ := Option.bind_eq_some_iff.mp h
  cases v <;> cases is_str
  rfl

end

theorem contentField_obj (fields : List (String × Json)) (name : String) :
    contentField (.obj fields) name = fields.lookup name := rfl

/-- What is left of the two spellings of the sticky key. -/
theorem singleStickyKey_spec {v w : Json} (h : singleStickyKey v = some w) :
    contentField w "msc4354_sticky_key" = stickyKey v ∧
      (∀ unstable ∈ contentField v "msc4354_sticky_key",
        ∀ stable ∈ contentField v "sticky_key", unstable = stable) ∧
      ∀ name, name ≠ "msc4354_sticky_key" → name ≠ "sticky_key" →
        contentField w name = contentField v name := by
  cases v with
  | obj fields =>
      simp only [stickyKey, contentField_obj]
      rw [singleStickyKey] at h
      cases is_stable : fields.lookup "sticky_key" with
      | none =>
          simp only [is_stable] at h
          cases h
          exact ⟨(Option.or_none).symm, fun _ _ _ is => (nomatch is), fun _ _ _ => rfl⟩
      | some stable =>
          simp only [is_stable] at h
          cases is_unstable : fields.lookup "msc4354_sticky_key" with
          | none =>
              simp only [is_unstable] at h
              cases h
              refine ⟨?_, fun _ is => (nomatch is), fun name unstable stable => ?_⟩
              · rw [contentField_obj, lookup_setField_self, Option.none_or]
              · rw [contentField_obj, lookup_setField_ne unstable, others,
                  ListPlaces.lookup_filter_ne stable]
          | some unstable =>
              simp only [is_unstable] at h
              split_ifs at h with same
              cases h
              refine ⟨?_, ?_, fun name _ stable => ?_⟩
              · rw [contentField_obj, others, ListPlaces.lookup_filter_ne (by decide), is_unstable]
                rfl
              · rintro _ ⟨⟩ _ ⟨⟩
                exact same
              · rw [contentField_obj, others, ListPlaces.lookup_filter_ne stable]
  | arr values =>
      cases h
      have unnamed : contentField (.arr values) "sticky_key" = none := by
        simp only [contentField, structFields]
        split_ifs with fits
        · have past : values[contentOrder.idxOf "sticky_key"]? = none :=
            List.getElem?_eq_none (Nat.le_trans fits (by decide))
          exact past
        · rfl
      rw [stickyKey, unnamed]
      exact ⟨(Option.or_none).symm, fun _ _ _ is => (nomatch is), fun _ _ _ => rfl⟩
  | null | bool | num | str =>
      cases h
      exact ⟨rfl, fun _ is => (nomatch is), fun _ _ _ => rfl⟩

/-- What a content that parses states. -/
theorem parse_spec {v : Json} {c : RawStickyEventContent}
    (h : parseRawStickyEventContent v = some c) :
    stated (contentField v "slot_id") = !c.slotId.isEmpty ∧
      stated (stickyKey v) = !c.stickyKey.isEmpty ∧
      (∀ unstable ∈ contentField v "msc4354_sticky_key",
        ∀ stable ∈ contentField v "sticky_key", unstable = stable) ∧
      stated (memberField v "id") = (c.member.id.any fun id => !id.isEmpty) ∧
      namesJoin (memberField v "membership") = (c.member.membership == some .join) ∧
      stated ((contentField v "application").bind (·.get "type")) =
        c.application.applicationType.isSome := by
  unfold parseRawStickyEventContent at h
  simp only [Option.bind_eq_bind, Option.bind_eq_some_iff] at h
  obtain ⟨w, single, field, is_field, slotId, is_slot, key, is_key, member, is_member,
    application, is_application, _, _, _, _, _, _, made⟩ := h
  cases made
  replace is_slot := Option.bind_eq_some_iff.mpr is_slot
  replace is_key := Option.bind_eq_some_iff.mpr is_key
  obtain ⟨is_sticky, agree, same⟩ := singleStickyKey_spec single
  have named (name : String) : field name = contentField w name := by
    rw [contentField, contentOrder, is_field, Option.bind_some]
  rw [named] at is_slot is_key is_member is_application
  rw [same _ (by decide) (by decide)] at is_slot is_member is_application
  rw [is_sticky] at is_key
  obtain ⟨id, membership⟩ := parseMember_spec is_member
  exact ⟨stated_of_str is_slot, stated_of_str is_key, agree, id, membership,
    parseApplication_spec is_application⟩

section
variable {object : List (String × Json)} {name : String}

theorem lookup_liftRoomSlotId (other : name ≠ "slot_id") :
    (liftRoomSlotId object).lookup name = object.lookup name := by
  unfold liftRoomSlotId
  split
  · exact lookup_setField_ne other
  · rfl

theorem lookup_liftRtcTransports (other : name ≠ "transports") :
    (liftRtcTransports object).lookup name = object.lookup name := by
  unfold liftRtcTransports
  split_ifs
  · rfl
  · split
    · rfl
    · rfl
    · exact lookup_setField_ne other

theorem lookup_inferMembership (other : name ≠ "member") :
    (inferMembership object).lookup name = object.lookup name := by
  unfold inferMembership
  split_ifs
  · rfl
  · split
    · split_ifs
      · rfl
      · exact lookup_setField_ne other
    · rfl

/-- A room's slot is named by a suffix that is not empty. -/
theorem stated_liftRoomSlotId :
    stated ((liftRoomSlotId object).lookup "slot_id") = stated (object.lookup "slot_id") := by
  unfold liftRoomSlotId
  split
  · rename_i application lifted
    obtain ⟨rest, lifted, -⟩ := Option.bind_eq_some_iff.mp lifted
    obtain ⟨slot, is_slot, stripped⟩ := Option.bind_eq_some_iff.mp lifted
    rw [lookup_setField_self, stated_of_str is_slot, stated]
    have room : (application ++ "#room").isEmpty = false := by
      rw [String.isEmpty_eq_false_iff]
      intro empty
      have chars := congrArg String.toList empty
      simp at chars
    have named : slot.isEmpty = false := by
      rw [String.isEmpty_eq_false_iff]
      rintro rfl
      cases stripped
    rw [room, named]
  · rfl

theorem names_eq (v : Json) (key : String) : names v key = stated (v.get key) := by
  unfold names
  cases is_field : v.get key with
  | none => rfl
  | some field => cases field <;> rfl

/-- What the member says of a membership, once the silence of an object is read as a join. -/
theorem namesJoin_inferMembership
    (id : stated (fieldOf (object.lookup "member") "id") = true)
    (application : stated ((object.lookup "application").bind (·.get "type")) = true) :
    namesJoin (fieldOf ((inferMembership object).lookup "member") "membership") = true ↔
      namesJoin (fieldOf (object.lookup "member") "membership") = true ∨
        silent (.obj object) = true := by
  have named : (object.lookup "application").any (names · "type") = true := by
    cases is_application : object.lookup "application" with
    | none =>
        rw [is_application] at application
        cases application
    | some v =>
        rw [is_application] at application
        rw [Option.any_some, names_eq]
        exact application
  rw [inferMembership, named, silent]
  simp only [Bool.not_true, Bool.false_eq_true, if_false]
  cases is_member : object.lookup "member" with
  | none => simp [is_member]
  | some v =>
      cases v with
      | obj member =>
          rw [is_member] at id
          have named_id : names (.obj member) "id" = true := (names_eq _ _).trans id
          simp only [named_id, fieldOf_obj, Bool.not_true, Bool.false_eq_true, or_false]
          cases is_membership : member.lookup "membership" with
          | none => simp [fieldOf_obj, namesJoin]
          | some membership => simp [is_member, fieldOf_obj, is_membership]
      | null | bool | num | str | arr => simp [is_member]

theorem fieldOf_inferMembership_id :
    fieldOf ((inferMembership object).lookup "member") "id" =
      fieldOf (object.lookup "member") "id" := by
  unfold inferMembership
  split_ifs
  · rfl
  · split
    · rename_i member is_member
      split_ifs
      · rfl
      · rw [lookup_setField_self, is_member]
        rw [fieldOf_obj, fieldOf_obj]
        exact lookup_setField_ne (by decide)
    · rfl

end

theorem normalized_obj {object : List (String × Json)} (slot : (object.lookup "slot_id").isSome) :
    normalizeMemberContent (.obj object) =
      (.obj (inferMembership (liftRtcTransports (liftRoomSlotId object))), .usable) := by
  rw [normalizeMemberContent, if_neg (by simpa using slot)]

theorem normalized_of_no_slot {content : Json} (slot : contentField content "slot_id" = none) :
    (normalizeMemberContent content).1 = content := by
  cases content with
  | obj object =>
      have slot : object.lookup "slot_id" = none := slot
      simp only [normalizeMemberContent, slot, Option.isNone_none, if_true]
      split_ifs <;> rfl
  | null | bool | num | str | arr => rfl

/-- What the readers of a join find in the rewritten content. -/
structure Kept (content value : Json) : Prop where
  slotId : stated (contentField value "slot_id") = stated (contentField content "slot_id")
  key : stickyKey value = stickyKey content
  unstable : contentField value "msc4354_sticky_key" = contentField content "msc4354_sticky_key"
  stable : contentField value "sticky_key" = contentField content "sticky_key"
  memberId : memberField value "id" = memberField content "id"
  application : contentField value "application" = contentField content "application"
  membership : stated (contentField content "slot_id") = true →
    stated (memberField content "id") = true →
    stated ((contentField content "application").bind (·.get "type")) = true →
    (namesJoin (memberField value "membership") = true ↔
      namesJoin (memberField content "membership") = true ∨ silent content = true)

theorem kept_self {content : Json}
    (loud : stated (contentField content "slot_id") = true → silent content = false) :
    Kept content content :=
  ⟨rfl, rfl, rfl, rfl, rfl, rfl, fun slot _ _ => by simp [loud slot]⟩

theorem kept_normalized (content : Json) : Kept content (normalizeMemberContent content).1 := by
  cases content with
  | obj object =>
      cases slot : object.lookup "slot_id" with
      | none =>
          have unnamed : contentField (.obj object) "slot_id" = none := slot
          rw [normalized_of_no_slot unnamed]
          refine kept_self fun is_stated => ?_
          rw [contentField_obj, slot] at is_stated
          cases is_stated
      | some slotId =>
          rw [normalized_obj (Option.isSome_of_eq_some slot)]
          have same {name : String} (member : name ≠ "member") (slot : name ≠ "slot_id")
              (transports : name ≠ "transports") :
              (inferMembership (liftRtcTransports (liftRoomSlotId object))).lookup name =
                object.lookup name := by
            rw [lookup_inferMembership member, lookup_liftRtcTransports transports,
              lookup_liftRoomSlotId slot]
          have lifted {name : String} (slot : name ≠ "slot_id") (transports : name ≠ "transports") :
              (liftRtcTransports (liftRoomSlotId object)).lookup name = object.lookup name := by
            rw [lookup_liftRtcTransports transports, lookup_liftRoomSlotId slot]
          have unstable := @same "msc4354_sticky_key" (by decide) (by decide) (by decide)
          have stable := @same "sticky_key" (by decide) (by decide) (by decide)
          have member : (liftRtcTransports (liftRoomSlotId object)).lookup "member" =
              object.lookup "member" := lifted (by decide) (by decide)
          have application : (liftRtcTransports (liftRoomSlotId object)).lookup "application" =
              object.lookup "application" := lifted (by decide) (by decide)
          refine
            { slotId := ?_
              key := ?_
              unstable := unstable
              stable := stable
              memberId := ?_
              application := same (by decide) (by decide) (by decide)
              membership := fun _ id type => ?_ }
          · simp only [contentField_obj]
            rw [lookup_inferMembership (by decide), lookup_liftRtcTransports (by decide),
              stated_liftRoomSlotId]
          · simp only [stickyKey, contentField_obj]
            rw [unstable, stable]
          · simp only [memberField, contentField_obj]
            rw [fieldOf_inferMembership_id, member]
          · simp only [memberField, contentField_obj] at id type ⊢
            rw [namesJoin_inferMembership (by rwa [member]) (by rwa [application]), member,
              silent, silent, member]
  | null | bool | num | str | arr => exact kept_self fun _ => rfl

/-- A content that parses states a join exactly when what was parsed is one. -/
theorem statesJoin_iff {content : Json} {c : RawStickyEventContent}
    (parsed : parseRawStickyEventContent (normalizeMemberContent content).1 = some c) :
    StatesJoin content ↔ c.slotId.isEmpty = false ∧ c.stickyKey.isEmpty = false ∧
      c.member.isJoin = true ∧ c.application.applicationType.isSome = true := by
  have kept := kept_normalized content
  obtain ⟨slotId, key, agree, id, membership, application⟩ := parse_spec parsed
  rw [kept.slotId] at slotId
  rw [kept.key] at key
  rw [kept.unstable, kept.stable] at agree
  rw [kept.memberId] at id
  rw [kept.application] at application
  have join : c.member.isJoin = true ↔
      namesJoin (memberField (normalizeMemberContent content).1 "membership") = true ∧
        stated (memberField content "id") = true := by
    rw [id, membership, MemberInfo.isJoin, Bool.and_eq_true]
  rw [join, ← application, ← Bool.not_eq_true', ← slotId, ← Bool.not_eq_true', ← key]
  constructor
  · intro h
    exact ⟨h.slotId, h.key, ⟨(kept.membership h.slotId h.memberId h.application).mpr h.membership,
      h.memberId⟩, h.application⟩
  · rintro ⟨slot, named, ⟨joins, member⟩, type⟩
    exact ⟨slot, named, agree, member, type, (kept.membership slot member type).mp joins⟩

/-- What a member event converts to. -/
def converted (roomId : String) (event : RawMemberEventIn) :
    Option (Except EventConversionError RtcMembershipEvent) :=
  (toCoreMemberEvent roomId event).map RawStickyEvent.tryIntoMembershipEvent

/-- The event types of a member event. -/
def IsMemberEvent (event : RawMemberEventIn) : Prop :=
  event.eventType = "m.rtc.member" ∨ event.eventType = "org.matrix.msc4143.rtc.member"

theorem joined_iff {e : RawStickyEvent} :
    (∃ m, e.tryIntoMembershipEvent = .ok (.joined m)) ↔
      (e.eventType = "m.rtc.member" ∨ e.eventType = "org.matrix.msc4143.rtc.member") ∧
      e.content.slotId.isEmpty = false ∧ e.content.stickyKey.isEmpty = false ∧
        e.content.member.isJoin = true ∧ e.content.application.applicationType.isSome = true := by
  unfold RawStickyEvent.tryIntoMembershipEvent RawStickyEvent.checkConvertible
  split_ifs with unknown slot key
  · exact iff_of_false (fun ⟨_, joined⟩ => nomatch joined) fun h => h.1.elim unknown.1 unknown.2
  · exact iff_of_false (fun ⟨_, joined⟩ => nomatch joined) fun h => by simp [slot] at h
  · exact iff_of_false (fun ⟨_, joined⟩ => nomatch joined) fun h => by simp [key] at h
  · have type : e.eventType = "m.rtc.member" ∨ e.eventType = "org.matrix.msc4143.rtc.member" := by
      by_contra neither
      exact unknown (not_or.mp neither)
    rw [Bool.not_eq_true] at slot key
    simp only [slot, key, type, true_and, Except.ok.injEq]
    unfold RawStickyEvent.membershipEvent
    split_ifs with joins
    · cases is_id : e.content.member.id with
      | none =>
          have join := joins.1
          simp [MemberInfo.isJoin, is_id] at join
      | some id => exact iff_of_true ⟨_, rfl⟩ joins
    · exact iff_of_false (fun ⟨_, joined⟩ => nomatch joined) joins

theorem unnamed_of_bareLeave {content : Json}
    (bare : (normalizeMemberContent content).2 = .bareLeave) :
    contentField content "slot_id" = none := by
  cases content with
  | obj object =>
      cases slot : object.lookup "slot_id" with
      | none => exact slot
      | some slotId =>
          rw [normalized_obj (Option.isSome_of_eq_some slot)] at bare
          cases bare
  | null | bool | num | str | arr => cases bare

/-- An event joins exactly when its content, rewritten, parses and states a join. -/
theorem converted_joined {roomId : String} {event : RawMemberEventIn} :
    (∃ m, converted roomId event = some (.ok (.joined m))) ↔ IsMemberEvent event ∧
      (parseRawStickyEventContent (normalizeMemberContent event.content).1).isSome = true ∧
        StatesJoin event.content := by
  cases parsed : parseRawStickyEventContent (normalizeMemberContent event.content).1 with
  | none =>
      refine iff_of_false (fun ⟨m, joined⟩ => ?_) fun h => nomatch h.2.1
      obtain ⟨raw, core, -⟩ := Option.map_eq_some_iff.mp joined
      unfold toCoreMemberEvent at core
      split at core
      · cases core
      · rename_i value normalized
        rw [normalized] at parsed
        rw [parsed] at core
        cases core
  | some c =>
      rw [statesJoin_iff parsed]
      cases flag : (normalizeMemberContent event.content).2 with
      | bareLeave =>
          have unnamed := unnamed_of_bareLeave flag
          have bare : toCoreMemberEvent roomId event = none := by
            unfold toCoreMemberEvent
            split
            · rfl
            · rename_i value normalized
              rw [normalized] at flag
              cases flag
          rw [← statesJoin_iff parsed]
          refine iff_of_false (fun ⟨m, joined⟩ => ?_) fun h => ?_
          · rw [converted, bare] at joined
            cases joined
          · have slot := h.2.2.slotId
            rw [unnamed] at slot
            cases slot
      | usable =>
          have core : toCoreMemberEvent roomId event = some
              { roomId := roomId
                eventId := event.eventId
                sender := event.sender
                origin := memberOrigin event.wasEncrypted event.senderDeviceId
                  (claimedDeviceId (normalizeMemberContent event.content).1)
                eventType := event.eventType
                originServerTs := event.originServerTs
                content := c } := by
            unfold toCoreMemberEvent
            split
            · rename_i value normalized
              rw [normalized] at flag
              cases flag
            · rename_i value normalized
              rw [normalized] at parsed
              rw [normalized, parsed, Option.map_some]
          simp only [converted, core, Option.map_some, Option.some.injEq]
          rw [joined_iff]
          simp only [Option.isSome_some, true_and, IsMemberEvent]

/-- What is before `#ROOM` in the id of a slot. -/
def roomSlotOf (slotId : Option Json) : Option String :=
  (slotId.bind Json.asStr).bind (stripSuffix · "ROOM") |>.bind (stripSuffix · "#")

theorem of_stripSuffix {s suffix rest : String} (h : stripSuffix s suffix = some rest) :
    s = rest ++ suffix := by
  unfold stripSuffix at h
  split_ifs at h with ends
  cases h
  obtain ⟨front, is⟩ := List.isSuffixOf_iff_suffix.mp ends
  rw [← String.toList_inj, String.toList_append, String.toList_ofList, ← is]
  simp

theorem of_roomSlotOf {slotId : Option Json} {application : String}
    (h : roomSlotOf slotId = some application) : slotId = some (.str (application ++ "#ROOM")) := by
  obtain ⟨rest, stripped, hash⟩ := Option.bind_eq_some_iff.mp h
  obtain ⟨s, is_str, room⟩ := Option.bind_eq_some_iff.mp stripped
  obtain ⟨v, rfl, is_str⟩ := Option.bind_eq_some_iff.mp is_str
  cases v <;> cases is_str
  rw [of_stripSuffix room, of_stripSuffix hash, String.append_assoc]
  rfl

theorem roomSlotOf_lifted (application : String) :
    roomSlotOf (some (.str (application ++ "#room"))) = none := by
  cases again : roomSlotOf (some (.str (application ++ "#room"))) with
  | none => rfl
  | some other =>
      have same := of_roomSlotOf again
      have texts : application ++ "#room" = other ++ "#ROOM" := by simpa using same
      have last := congrArg (fun s : String => s.toList.getLast?) texts
      simp at last

section
variable {object : List (String × Json)}

theorem liftRoomSlotId_self (current : roomSlotOf (object.lookup "slot_id") = none) :
    liftRoomSlotId object = object := by
  unfold liftRoomSlotId
  unfold roomSlotOf at current
  rw [current]

theorem roomSlotOf_liftRoomSlotId :
    roomSlotOf ((liftRoomSlotId object).lookup "slot_id") = none := by
  cases old : roomSlotOf (object.lookup "slot_id") with
  | none => rw [liftRoomSlotId_self old, old]
  | some application =>
      have lifted : liftRoomSlotId object =
          setField object "slot_id" (.str (application ++ "#room")) := by
        unfold liftRoomSlotId
        unfold roomSlotOf at old
        rw [old]
      rw [lifted, lookup_setField_self]
      exact roomSlotOf_lifted application

/-- The transports are stated, or there is nothing to state them from. -/
def TransportsLifted (object : List (String × Json)) : Prop :=
  (object.lookup "transports").isSome = true ∨
    ((object.lookup "rtc_transports").bind Json.asArray).getD [] = []

theorem liftRtcTransports_self (lifted : TransportsLifted object) :
    liftRtcTransports object = object := by
  unfold liftRtcTransports
  obtain stated | unstated := lifted
  · rw [if_pos stated]
  · split_ifs
    · rfl
    · split
      · rfl
      · rfl
      · rename_i published some_ is_published
        rw [is_published] at unstated
        exact absurd unstated some_

theorem transportsLifted_liftRtcTransports : TransportsLifted (liftRtcTransports object) := by
  unfold liftRtcTransports
  split_ifs with stated
  · exact .inl stated
  · split
    · rename_i none_
      exact .inr (by rw [none_]; rfl)
    · rename_i empty
      exact .inr (by rw [empty]; rfl)
    · exact .inl (by rw [lookup_setField_self]; rfl)

theorem inferMembership_self (stated : (fieldOf (object.lookup "member") "membership").isSome) :
    inferMembership object = object := by
  unfold inferMembership
  split_ifs
  · rfl
  · split
    · rename_i member is_member
      rw [is_member, fieldOf_obj] at stated
      rw [if_pos (.inl stated)]
    · rfl

theorem inferMembership_cases :
    inferMembership object = object ∨
      (fieldOf ((inferMembership object).lookup "member") "membership").isSome = true := by
  unfold inferMembership
  split_ifs
  · exact .inl rfl
  · split
    · split_ifs
      · exact .inl rfl
      · refine .inr ?_
        rw [lookup_setField_self, fieldOf_obj, lookup_setField_self]
        rfl
    · exact .inl rfl

theorem inferMembership_inferMembership :
    inferMembership (inferMembership object) = inferMembership object := by
  obtain unchanged | stated := @inferMembership_cases object
  · rw [unchanged, unchanged]
  · exact inferMembership_self stated

end

/-- A content that has been rewritten is not rewritten again. -/
theorem normalize_normalize (content : Json) :
    normalizeMemberContent (normalizeMemberContent content).1 = normalizeMemberContent content := by
  cases content with
  | obj object =>
      cases slot : object.lookup "slot_id" with
      | none =>
          have unnamed : contentField (.obj object) "slot_id" = none := slot
          rw [normalized_of_no_slot unnamed]
      | some slotId =>
          rw [normalized_obj (Option.isSome_of_eq_some slot)]
          generalize roomed : liftRoomSlotId object = first
          generalize lifted : liftRtcTransports first = second
          generalize inferred : inferMembership second = third
          have slots : third.lookup "slot_id" = first.lookup "slot_id" := by
            rw [← inferred, lookup_inferMembership (by decide), ← lifted,
              lookup_liftRtcTransports (by decide)]
          have stated : (first.lookup "slot_id").isSome := by
            rw [← roomed]
            unfold liftRoomSlotId
            split
            · rw [lookup_setField_self]
              rfl
            · exact Option.isSome_of_eq_some slot
          have same : liftRoomSlotId third = third := by
            apply liftRoomSlotId_self
            rw [slots, ← roomed]
            exact roomSlotOf_liftRoomSlotId
          have transports : TransportsLifted third := by
            have before : TransportsLifted second := lifted ▸ transportsLifted_liftRtcTransports
            unfold TransportsLifted at before ⊢
            rwa [← inferred, lookup_inferMembership (by decide),
              lookup_inferMembership (by decide)]
          rw [normalized_obj (slots ▸ stated), same, liftRtcTransports_self transports, ← inferred,
            inferMembership_inferMembership]
  | null | bool | num | str | arr => rfl

/-- What states its membership and its transports and does not name its slot the old way is
left as it is. -/
theorem normalize_current {content : Json}
    (membership : (memberField content "membership").isSome)
    (transports : (contentField content "transports").isSome)
    (slot : ∀ application, contentField content "slot_id" ≠ some (.str (application ++ "#ROOM"))) :
    (normalizeMemberContent content).1 = content := by
  cases content with
  | obj object =>
      cases named : object.lookup "slot_id" with
      | none =>
          have unnamed : contentField (.obj object) "slot_id" = none := named
          exact normalized_of_no_slot unnamed
      | some slotId =>
          have current : roomSlotOf (object.lookup "slot_id") = none := by
            refine Option.eq_none_iff_forall_ne_some.mpr fun application old => ?_
            exact slot application (of_roomSlotOf old)
          rw [normalized_obj (Option.isSome_of_eq_some named), liftRoomSlotId_self current,
            liftRtcTransports_self (.inl transports), inferMembership_self membership]
  | null | bool | num | str | arr => rfl

theorem unstated_of_silent {content : Json} (h : silent content = true) :
    memberField content "membership" = none := by
  unfold silent at h
  split at h
  · split at h
    · rename_i object member is_member
      rw [memberField, contentField_obj, is_member, fieldOf_obj]
      exact Option.isNone_iff_eq_none.mp h
    · cases h
  · cases h

/-- A member event joins exactly when its content, rewritten, parses and states a join; a
membership that is stated and is no `join` never does, and what is rewritten is rewritten once
and where the current format does not state it. -/
theorem joined_as_stated (roomId : String) (event : RawMemberEventIn) :
    (IsMemberEvent event →
      ((∃ m, converted roomId event = some (.ok (.joined m))) ↔
        (parseRawStickyEventContent (normalizeMemberContent event.content).1).isSome = true ∧
          StatesJoin event.content)) ∧
    (∀ membership ∈ memberField event.content "membership", namesJoin (some membership) = false →
      ∀ m, converted roomId event ≠ some (.ok (.joined m))) ∧
    normalizeMemberContent (normalizeMemberContent event.content).1 =
      normalizeMemberContent event.content ∧
    ((memberField event.content "membership").isSome = true →
      (contentField event.content "transports").isSome = true →
      (∀ application,
        contentField event.content "slot_id" ≠ some (.str (application ++ "#ROOM"))) →
      (normalizeMemberContent event.content).1 = event.content) := by
  refine ⟨fun type => ?_, fun membership is_membership unjoined m joined => ?_,
    normalize_normalize event.content, normalize_current⟩
  · rw [converted_joined]
    exact and_iff_right type
  · obtain ⟨-, -, states⟩ := converted_joined.mp ⟨m, joined⟩
    have is_membership : memberField event.content "membership" = some membership := is_membership
    obtain named | silent := states.membership
    · rw [is_membership, unjoined] at named
      cases named
    · cases (unstated_of_silent silent).symm.trans is_membership

/-- A member whose membership is written as a variant with no content. -/
def variantJoin : RawMemberEventIn :=
  { eventId := some "$member", sender := "@bob", senderDeviceId := none, wasEncrypted := none
    originServerTs := some 0, eventType := "m.rtc.member"
    content := .obj
      [("slot_id", .str "m.call#room"), ("sticky_key", .str "m-bob"),
        ("member", .obj [("id", .str "m-bob"), ("membership", .obj [("join", .null)])]),
        ("application", .obj [("type", .str "m.call")])] }

/-- A membership need not be a string to be read as a join. -/
theorem joined_of_no_string :
    ¬ ∀ (roomId : String) (event : RawMemberEventIn), IsMemberEvent event →
      (∃ m, converted roomId event = some (.ok (.joined m))) →
        memberField event.content "membership" = some (.str "join") ∨
          memberField event.content "membership" = none := by
  intro all
  have joined : ∃ m, converted "!room" variantJoin = some (.ok (.joined m)) := ⟨_, rfl⟩
  have wrong : ¬ (memberField variantJoin.content "membership" = some (.str "join") ∨
      memberField variantJoin.content "membership" = none) := by decide +kernel
  exact wrong (all "!room" variantJoin (.inl rfl) joined)

end MatrixRtc.JoinedContents

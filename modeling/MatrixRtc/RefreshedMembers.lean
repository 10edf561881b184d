import MatrixRtc.DeliveryRecords
import MatrixRtc.RoomStateFoci

/-!
# The participation of a member of room state

A membership in room state is re-sent to extend its lifetime, and its member id is reused by
the next join: what tells two joins apart is when each began. That is the smaller of a time the
member states and one its homeserver does, and a refresh moves the second.
-/
namespace MatrixRtc.RefreshedMembers
open DeliveryRecords EncryptionManagers JsonValues KeyRollout MemberContents MemberEvents
  MemberIngest RoomStateFoci RoomStateMembers

/-- A state event as a client translates it, with the room's others, at a reading of its
clock. -/
structure Reading where
  event : LegacyStateMemberEventIn
  room : List LegacyStateMemberEventIn
  now : ℕ

namespace Reading
variable (r : Reading)

def entry : Option StateMembership := entryOf r.room r.now r.event

def Live : Prop := ¬ Dropped r.event r.now

def createdTs : Option ℕ := (r.event.content.get "created_ts").bind Json.asU64

/-- The member id a content states, or that of its device. -/
def memberId : String :=
  let stated := fun key => ((r.event.content.get key).bind Json.asStr).filter fun s => !s.isEmpty
  (stated "membershipID").getD (participantIdentity r.event.sender ((stated "device_id").getD ""))

end Reading

/-- One join and its refreshes. -/
structure Refreshes (createdTs : ℕ) (rs : List Reading) : Prop where
  sender : ∀ r ∈ rs, ∀ s ∈ rs, r.event.sender = s.event.sender
  stateKey : ∀ r ∈ rs, ∀ s ∈ rs, r.event.stateKey = s.event.stateKey
  created : ∀ r ∈ rs, r.createdTs = some createdTs
  device : ∀ r ∈ rs, ∀ s ∈ rs, r.event.content.get "device_id" = s.event.content.get "device_id"
  membership : ∀ r ∈ rs, ∀ s ∈ rs,
    r.event.content.get "membershipID" = s.event.content.get "membershipID"
  ordered : rs.Pairwise fun r s => r.event.originServerTs ≤ s.event.originServerTs

/-- A later join of the same sender and state key. -/
structure Rejoin (createdTs : ℕ) (rs : List Reading) (later : Reading) : Prop where
  sender : ∀ r ∈ rs, later.event.sender = r.event.sender
  stateKey : ∀ r ∈ rs, later.event.stateKey = r.event.stateKey
  created : ∃ laterTs ∈ later.createdTs, createdTs < laterTs

/-- What the key bookkeeping reads of a translated membership. -/
def infoOf (m : StateMembership) : ParticipantDeviceInfo :=
  { userId := m.sender
    deviceId := m.claimedDeviceId
    memberId := (((m.content.get "member").bind (·.get "id")).bind Json.asStr).getD ""
    membershipTs := (m.content.get "created_ts").bind Json.asU64 }

/-- The refreshes are one participation, of which no key is sent or replaced again, and the
later join is another. -/
structure KeepsIdentity (rs : List Reading) (later : Reading) : Prop where
  created : ∀ r ∈ rs, ∀ m ∈ r.entry, ∀ s ∈ rs, ∀ n ∈ s.entry,
    m.content.get "created_ts" = n.content.get "created_ts"
  same : ∀ r ∈ rs, ∀ m ∈ r.entry, ∀ s ∈ rs, ∀ n ∈ s.entry, (infoOf m).sameJoin (infoOf n) = true
  kept : ∀ r ∈ rs, ∀ m ∈ r.entry, ∀ s ∈ rs, ∀ n ∈ s.entry, ∀ key before after,
    left key (before ++ infoOf n :: after) = left key (before ++ infoOf m :: after) ∧
      (joined key (before ++ infoOf n :: after)).map (·.participation) =
        (joined key (before ++ infoOf m :: after)).map (·.participation)
  apart : ∀ r ∈ rs, ∀ m ∈ r.entry, ∀ n ∈ later.entry, (infoOf n).sameJoin (infoOf m) = false

/-- The live refreshes have one time of the homeserver, or are none of them older than the
join states; and the later join's is not the time at which the earlier began. -/
structure Anchored (createdTs : ℕ) (rs : List Reading) (later : Reading) : Prop where
  pinned : ∀ r ∈ rs, ∀ s ∈ rs, r.Live → s.Live →
    r.event.originServerTs = s.event.originServerTs ∨
      createdTs ≤ r.event.originServerTs ∧ createdTs ≤ s.event.originServerTs
  apart : ∀ r ∈ rs, r.Live → later.Live → later.memberId = r.memberId →
    (later.event.originServerTs = r.event.originServerTs → createdTs < r.event.originServerTs) ∧
      (later.event.originServerTs = createdTs → r.event.originServerTs < createdTs)

section
variable {r : Reading} {m : StateMembership} {createdTs : ℕ}

/-- When a member joined that states `createdTs`. -/
theorem entry_spec (h : r.entry = some m) (created : r.createdTs = some createdTs) :
    (infoOf m).participation = ⟨r.memberId, some (min createdTs r.event.originServerTs)⟩ ∧
      m.content.get "created_ts" =
        some (.num (.posInt (min createdTs r.event.originServerTs))) := by
  obtain ⟨member, parsed, rfl⟩ := Option.map_eq_some_iff.mp h
  obtain ⟨object, application, deviceId, content, -, -, device, -, rfl⟩ := parse_eq_some.mp parsed
  have began : joinedAt object r.event.originServerTs = min createdTs r.event.originServerTs := by
    have stated : (object.lookup "created_ts").bind Json.asU64 = some createdTs := by
      rw [← created, Reading.createdTs, content]
      rfl
    rw [joinedAt, stated]
  have named : r.memberId = (nonEmptyField object "membershipID").getD
      (participantIdentity r.event.sender deviceId) := by
    have stated (key : String) : ((r.event.content.get key).bind Json.asStr).filter
        (fun s => !s.isEmpty) = nonEmptyField object key := by
      rw [content]
      rfl
    simp only [Reading.memberId, stated, device, Option.getD_some]
  rw [named, ← began]
  exact ⟨rfl, rfl⟩

theorem live_of_entry (h : r.entry = some m) : r.Live := by
  obtain ⟨member, parsed, -⟩ := Option.map_eq_some_iff.mp h
  exact live_iff.mpr ⟨member, parsed⟩

theorem entry_of_live (live : r.Live) : ∃ m, r.entry = some m := by
  obtain ⟨member, parsed⟩ := live_iff.mp live
  exact ⟨_, Option.map_eq_some_iff.mpr ⟨member, parsed, rfl⟩⟩

/-- The member id and the time that are parsed of a translated content. -/
theorem parsed_rewritten {members : List Parsed} {member : Parsed} {content : RawStickyEventContent}
    (parsed : parseRawStickyEventContent (translateMembership members member).content =
      some content) :
    content.member.id = some member.memberId ∧ content.createdTs = some member.joinedAt := by
  unfold parseRawStickyEventContent at parsed
  simp only [Option.bind_eq_bind, Option.bind_eq_some_iff] at parsed
  obtain ⟨w, single, field, is_field, _, _, _, _, info, is_info, _, _, _, _, _, _, created,
    is_created, made⟩ := parsed
  cases made
  have is_w : w = (translateMembership members member).content := by
    cases focus : resolveFocus member members with
    | none =>
        simp only [translateMembership, rewrittenContent, focus] at single ⊢
        exact (Option.some.inj single).symm
    | some _ =>
        simp only [translateMembership, rewrittenContent, focus] at single ⊢
        exact (Option.some.inj single).symm
  subst is_w
  cases is_field
  exact ⟨(Option.some.inj is_info) ▸ rfl, Option.some.inj is_created.symm⟩

/-- What the key bookkeeping is given of a membership is what the translation says. -/
theorem deviceInfo_of_core {roomId : String} {e : RawStickyEvent} {j : JoinedMembership}
    (h : r.entry = some m) (core : toCoreStateMembership roomId m = some e)
    (joins : e.tryIntoMembershipEvent = .ok (.joined j)) : deviceInfo j = infoOf m := by
  obtain ⟨member, -, rfl⟩ := Option.map_eq_some_iff.mp h
  obtain ⟨content, parsed, rfl⟩ := Option.map_eq_some_iff.mp core
  obtain ⟨id, created⟩ := parsed_rewritten parsed
  unfold RawStickyEvent.tryIntoMembershipEvent at joins
  split at joins
  · cases joins
  · have joined := Except.ok.inj joins
    unfold RawStickyEvent.membershipEvent at joined
    split_ifs at joined
    rw [id] at joined
    cases joined
    simp only [deviceInfo, RawStickyEvent.intoJoined, created]
    rfl

end

section
variable {key : OutboundEncryptionKey} {before after : List ParticipantDeviceInfo}
  {p q : ParticipantDeviceInfo}

theorem anySameJoin_congr (same : p.participation = q.participation) (x : ParticipantDeviceInfo) :
    anySameJoin (before ++ p :: after) x = anySameJoin (before ++ q :: after) x := by
  rw [Bool.eq_iff_iff, anySameJoin_iff, anySameJoin_iff]
  simp only [List.mem_append, List.mem_cons, or_and_right, exists_or, exists_eq_left, same]

theorem left_congr (same : p.participation = q.participation) :
    left key (before ++ p :: after) = left key (before ++ q :: after) := by
  simp only [left, anySameJoin_congr same]

theorem joined_congr (same : p.participation = q.participation) :
    (joined key (before ++ p :: after)).map (·.participation) =
      (joined key (before ++ q :: after)).map (·.participation) := by
  have served : anySameJoin key.sharedWith p = anySameJoin key.sharedWith q := by
    rw [Bool.eq_iff_iff, anySameJoin_iff, anySameJoin_iff, same]
  simp only [joined, List.filter_append, List.filter_cons, served, List.map_append]
  split_ifs <;> simp [same]

end

section
variable {createdTs : ℕ} {rs : List Reading} {later : Reading}

theorem Refreshes.memberId (refreshes : Refreshes createdTs rs) {r s : Reading} (hr : r ∈ rs)
    (hs : s ∈ rs) : r.memberId = s.memberId := by
  simp only [Reading.memberId, refreshes.membership r hr s hs, refreshes.sender r hr s hs,
    refreshes.device r hr s hs]

theorem same_iff (refreshes : Refreshes createdTs rs) {r s : Reading} (hr : r ∈ rs) (hs : s ∈ rs)
    {m n : StateMembership} (is_m : r.entry = some m) (is_n : s.entry = some n) :
    (infoOf m).participation = (infoOf n).participation ↔
      (r.event.originServerTs = s.event.originServerTs ∨
        createdTs ≤ r.event.originServerTs ∧ createdTs ≤ s.event.originServerTs) := by
  rw [(entry_spec is_m (refreshes.created r hr)).1, (entry_spec is_n (refreshes.created s hs)).1,
    refreshes.memberId hr hs]
  simp only [Participation.mk.injEq, true_and, Option.some.injEq]
  omega

theorem apart_iff (refreshes : Refreshes createdTs rs) (rejoin : Rejoin createdTs rs later)
    {r : Reading} (hr : r ∈ rs) {m n : StateMembership} (is_m : r.entry = some m)
    (is_n : later.entry = some n) :
    (infoOf n).participation ≠ (infoOf m).participation ↔
      (later.memberId = r.memberId →
        (later.event.originServerTs = r.event.originServerTs →
          createdTs < r.event.originServerTs) ∧
        (later.event.originServerTs = createdTs → r.event.originServerTs < createdTs)) := by
  obtain ⟨laterTs, is_later, gt⟩ := rejoin.created
  rw [(entry_spec is_m (refreshes.created r hr)).1, (entry_spec is_n is_later).1]
  simp only [ne_eq, Participation.mk.injEq, Option.some.injEq, not_and]
  refine imp_congr_right fun _ => ?_
  omega

end

/-- The key bookkeeping reads the participation of a translation, and a member of room state
keeps its own over its refreshes, and loses it with the next join, exactly where the times its
homeserver states agree with the ones it does. -/
theorem identity_kept_iff {createdTs : ℕ} {rs : List Reading} {later : Reading}
    (refreshes : Refreshes createdTs rs) (rejoin : Rejoin createdTs rs later) :
    (∀ r : Reading, ∀ m ∈ r.entry, ∀ roomId, ∀ e ∈ toCoreStateMembership roomId m, ∀ j,
      e.tryIntoMembershipEvent = .ok (.joined j) → deviceInfo j = infoOf m) ∧
    (KeepsIdentity rs later ↔ Anchored createdTs rs later) := by
  refine ⟨fun r m is_m roomId e core j joins => deviceInfo_of_core is_m core joins, ?_⟩
  constructor
  · intro keeps
    refine ⟨fun r hr s hs live live' => ?_, fun r hr live live' => ?_⟩
    · obtain ⟨m, is_m⟩ := entry_of_live live
      obtain ⟨n, is_n⟩ := entry_of_live live'
      exact (same_iff refreshes hr hs is_m is_n).mp
        (ParticipantDeviceInfo.sameJoin_iff.mp (keeps.same r hr m is_m s hs n is_n))
    · obtain ⟨m, is_m⟩ := entry_of_live live
      obtain ⟨n, is_n⟩ := entry_of_live live'
      refine (apart_iff refreshes rejoin hr is_m is_n).mp fun same => ?_
      have apart := keeps.apart r hr m is_m n is_n
      rw [ParticipantDeviceInfo.sameJoin_iff.mpr same] at apart
      cases apart
  · intro anchored
    have same {r s : Reading} (hr : r ∈ rs) (hs : s ∈ rs) {m n : StateMembership}
        (is_m : r.entry = some m) (is_n : s.entry = some n) :
        (infoOf m).participation = (infoOf n).participation :=
      (same_iff refreshes hr hs is_m is_n).mpr
        (anchored.pinned r hr s hs (live_of_entry is_m) (live_of_entry is_n))
    refine
      { created := fun r hr m is_m s hs n is_n => ?_
        same := fun r hr m is_m s hs n is_n =>
          ParticipantDeviceInfo.sameJoin_iff.mpr (same hr hs is_m is_n)
        kept := fun r hr m is_m s hs n is_n key before after =>
          ⟨left_congr (same hs hr is_n is_m), joined_congr (same hs hr is_n is_m)⟩
        apart := fun r hr m is_m n is_n => ?_ }
    · obtain ⟨info, stated⟩ := entry_spec is_m (refreshes.created r hr)
      obtain ⟨info', stated'⟩ := entry_spec is_n (refreshes.created s hs)
      have one := same hr hs is_m is_n
      rw [info, info', Participation.mk.injEq, Option.some.injEq] at one
      rw [stated, stated', one.2]
    · rw [← Bool.not_eq_true, ParticipantDeviceInfo.sameJoin_iff]
      exact (apart_iff refreshes rejoin hr is_m is_n).mpr
        (anchored.apart r hr (live_of_entry is_m) (live_of_entry is_n))

/-- A membership of one device, read as soon as it is sent. -/
def sent (createdTs originServerTs : ℕ) : Reading :=
  let event : LegacyStateMemberEventIn :=
    { eventId := none, sender := "@bob", stateKey := "_@bob_BOB_m.call"
      originServerTs := originServerTs
      content := .obj
        [("application", .str "m.call"), ("device_id", .str "BOB"), ("call_id", .str ""),
          ("created_ts", .num (.posInt createdTs))] }
  ⟨event, [event], originServerTs⟩

theorem refreshes_sent (createdTs first second : ℕ) (le : first ≤ second) :
    Refreshes createdTs [sent createdTs first, sent createdTs second] where
  sender := by simp [sent]
  stateKey := by simp [sent]
  created r hr := by
    obtain rfl | rfl := by simpa using hr
    · rfl
    · rfl
  device := by simp [sent, Json.get, Json.asObject]
  membership := by simp [sent, Json.get, Json.asObject]
  ordered := by simpa [sent] using le

theorem rejoin_sent (createdTs first second laterTs third : ℕ) (gt : createdTs < laterTs) :
    Rejoin createdTs [sent createdTs first, sent createdTs second] (sent laterTs third) where
  sender := by simp [sent]
  stateKey := by simp [sent]
  created := ⟨laterTs, rfl, gt⟩

theorem identity_kept_anchored : KeepsIdentity [sent 1 2, sent 1 5] (sent 9 9) :=
  (identity_kept_iff (refreshes_sent 1 2 5 (by decide))
    (rejoin_sent 1 2 5 9 9 (by decide))).2.mpr
    { pinned := fun r hr s hs _ _ => by
        have old : ∀ r ∈ [sent 1 2, sent 1 5], 1 ≤ r.event.originServerTs := by decide
        exact .inr ⟨old r hr, old s hs⟩
      apart := fun r hr _ _ _ => by
        have before : ∀ r ∈ [sent 1 2, sent 1 5], r.event.originServerTs < 9 := by decide
        exact ⟨fun same => absurd same.symm (before r hr).ne, fun same => nomatch same⟩ }

/-- A refresh of a member whose clock is ahead of its homeserver's reads as a rejoin. -/
theorem refresh_reads_as_rejoin :
    ¬ ∀ (createdTs : ℕ) (rs : List Reading) (later : Reading), Refreshes createdTs rs →
      Rejoin createdTs rs later → KeepsIdentity rs later := by
  intro all
  have keeps := all 100 [sent 100 50, sent 100 70] (sent 200 200)
    (refreshes_sent 100 50 70 (by decide)) (rejoin_sent 100 50 70 200 200 (by decide))
  have moved : ((sent 100 50).entry.bind fun m => (sent 100 70).entry.map fun n =>
      (infoOf m).sameJoin (infoOf n)) = some false := by decide +kernel
  obtain ⟨m, is_m, mapped⟩ := Option.bind_eq_some_iff.mp moved
  obtain ⟨n, is_n, differs⟩ := Option.map_eq_some_iff.mp mapped
  have same := keeps.same _ (List.mem_cons_self) m is_m _
    (List.mem_cons_of_mem _ List.mem_cons_self) n is_n
  cases differs.symm.trans same

end MatrixRtc.RefreshedMembers

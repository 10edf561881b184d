import MatrixRtc.RoomStateMembers
import Mathlib.Data.List.MinMax
import Mathlib.Data.List.Nodup
import Mathlib.Data.Prod.Lex
import Mathlib.Data.String.Basic

/-!
# The focus of a member of room state

Every client resolves the focus of a member from the same set of live memberships, whatever
order the homeserver lists the room's state in. What decides a focus is the oldest membership
of the slot, and the state keys of a room are distinct.
-/
namespace MatrixRtc.RoomStateFoci
open JsonValues MemberIngest RoomStateMembers

/-- Expired, a leave, or a content that names no application or device. -/
def Dropped (event : LegacyStateMemberEventIn) (now : ℕ) : Prop :=
  match event.content with
  | .obj object =>
      object = [] ∨ (object.lookup "memberships").isSome = true ∨
        nonEmptyField object "application" = none ∨ nonEmptyField object "device_id" = none ∨
        deadline object event.originServerTs ≤ now
  | _ => True

/-- The entry of one event, translated with the others. -/
def entryOf (events : List LegacyStateMemberEventIn) (now : ℕ) (event : LegacyStateMemberEventIn) :
    Option StateMembership :=
  (parse event now).map (translateMembership (events.filterMap (parse · now)))

/-- The transports an entry publishes. -/
def published (entry : StateMembership) : Option Json :=
  (entry.content.get "transports").bind (·.get "published")

/-- The order `oldest_membership` chooses by. -/
def age (member : Parsed) : ℕ ×ₗ String := toLex (member.joinedAt, member.stateKey)

/-- `member` selects `multi_sfu` and names a focus. -/
def KeepsOwn (member : Parsed) : Prop := member.prefersOwnFocus = true ∧ member.ownFocus.isSome = true

section
variable {event : LegacyStateMemberEventIn} {now : ℕ} {member : Parsed}

theorem live_iff : ¬ Dropped event now ↔ ∃ member, parse event now = some member := by
  simp only [parse_eq_some]
  unfold Dropped
  cases content : event.content with
  | obj object =>
      simp only [not_or, Json.obj.injEq, Bool.not_eq_true, Option.isSome_eq_false_iff,
        Option.isNone_iff_eq_none, Nat.not_le]
      constructor
      · rintro ⟨full, current, named, device, alive⟩
        obtain ⟨application, is_named⟩ := Option.ne_none_iff_exists'.mp named
        obtain ⟨deviceId, is_device⟩ := Option.ne_none_iff_exists'.mp device
        exact ⟨_, object, application, deviceId, rfl, ⟨full, current⟩, is_named, is_device, alive,
          rfl⟩
      · rintro ⟨_, _, application, deviceId, rfl, ⟨full, current⟩, named, device, alive, -⟩
        exact ⟨full, current, Option.ne_none_iff_exists'.mpr ⟨application, named⟩,
          Option.ne_none_iff_exists'.mpr ⟨deviceId, device⟩, alive⟩
  | null | bool | num | str | arr => simp

theorem parse_eq_none (h : Dropped event now) : parse event now = none :=
  Option.eq_none_iff_forall_ne_some.mpr fun member parsed => live_iff.mpr ⟨member, parsed⟩ h

end

section
variable {members others : List Parsed}

theorem olderThan_iff {a b : Parsed} : a.olderThan b = true ↔ age a < age b := by
  simp [Parsed.olderThan, age, Prod.Lex.toLex_lt_toLex]

theorem oldest_eq_argmin (members : List Parsed) : oldest members = members.argmin age := by
  unfold oldest List.argmin
  congr 1
  funext found member
  cases found with
  | none => rfl
  | some best =>
      simp only [List.argAux, olderThan_iff]

/-- Members that are told apart by their ages have one oldest, in whatever order they are. -/
theorem argmin_perm {α β : Type} [LinearOrder β] {f : α → β} {l k : List α} (perm : l.Perm k)
    (inj : ∀ a ∈ l, ∀ b ∈ l, f a = f b → a = b) : l.argmin f = k.argmin f := by
  cases least : l.argmin f with
  | none =>
      rw [List.argmin_eq_none] at least
      subst least
      rw [List.nil_perm.mp perm, List.argmin_nil]
  | some a =>
      cases other : k.argmin f with
      | none =>
          rw [List.argmin_eq_none] at other
          subst other
          rw [List.perm_nil.mp perm] at least
          cases least
      | some b =>
          have a_mem : a ∈ l := List.argmin_mem least
          have b_mem : b ∈ k := List.argmin_mem other
          have a_le : f a ≤ f b := List.le_of_mem_argmin (perm.mem_iff.mpr b_mem) least
          have b_le : f b ≤ f a := List.le_of_mem_argmin (perm.mem_iff.mp a_mem) other
          rw [inj a a_mem b (perm.mem_iff.mpr b_mem) (le_antisymm a_le b_le)]

end

section
variable {events : List LegacyStateMemberEventIn} {now : ℕ} {event : LegacyStateMemberEventIn}
  {member : Parsed} {members others : List Parsed}

/-- The members of one slot. -/
def ofSlot (slotId : String) (members : List Parsed) : List Parsed :=
  members.filter fun candidate => candidate.slotId == slotId

theorem translateMembership_congr
    (same : oldest (ofSlot member.slotId members) = oldest (ofSlot member.slotId others)) :
    translateMembership members member = translateMembership others member := by
  have focus : resolveFocus member members = resolveFocus member others := by
    unfold resolveFocus
    unfold ofSlot at same
    rw [same]
  simp only [translateMembership, rewrittenContent, focus]

theorem translate_eq (events : List LegacyStateMemberEventIn) (now : ℕ) :
    translateStateMemberships events now = events.filterMap (entryOf events now) :=
  List.map_filterMap

theorem member_of_stateKey (distinct : (events.map (·.stateKey)).Nodup) {p q : Parsed}
    (p_mem : p ∈ events.filterMap (parse · now)) (q_mem : q ∈ events.filterMap (parse · now))
    (same : p.stateKey = q.stateKey) : p = q := by
  obtain ⟨e, e_mem, is_p⟩ := List.mem_filterMap.mp p_mem
  obtain ⟨e', e'_mem, is_q⟩ := List.mem_filterMap.mp q_mem
  obtain ⟨_, _, _, -, -, -, -, -, made⟩ := parse_eq_some.mp is_p
  obtain ⟨_, _, _, -, -, -, -, -, made'⟩ := parse_eq_some.mp is_q
  have keys : e.stateKey = e'.stateKey := by
    rw [made, made'] at same
    exact same
  have one : e = e' := List.inj_on_of_nodup_map distinct e_mem e'_mem keys
  subst one
  exact Option.some.inj (is_p.symm.trans is_q)

theorem oldest_perm (distinct : (events.map (·.stateKey)).Nodup)
    {events' : List LegacyStateMemberEventIn} (perm : events.Perm events') (slotId : String) :
    oldest (ofSlot slotId (events.filterMap (parse · now))) =
      oldest (ofSlot slotId (events'.filterMap (parse · now))) := by
  rw [oldest_eq_argmin, oldest_eq_argmin]
  refine argmin_perm ((perm.filterMap _).filter _) fun p p_mem q q_mem same => ?_
  have keys : p.stateKey = q.stateKey := congrArg (fun a => (ofLex a).2) same
  exact member_of_stateKey distinct (List.mem_of_mem_filter p_mem) (List.mem_of_mem_filter q_mem)
    keys

theorem ofSlot_insert {before after : List LegacyStateMemberEventIn} {slotId : String}
    (other : Dropped event now ∨ ∀ p ∈ parse event now, p.slotId ≠ slotId) :
    ofSlot slotId ((before ++ event :: after).filterMap (parse · now)) =
      ofSlot slotId ((before ++ after).filterMap (parse · now)) := by
  cases parsed : parse event now with
  | none => simp [List.filterMap_append, parsed]
  | some p =>
      have elsewhere : (p.slotId == slotId) = false := by
        obtain dropped | other := other
        · cases (parse_eq_none dropped).symm.trans parsed
        · exact beq_false_of_ne (other p parsed)
      simp [ofSlot, parsed, elsewhere]

/-- The oldest of the live members of a slot. -/
structure IsOldest (events : List LegacyStateMemberEventIn) (now : ℕ) (slotId : String)
    (oldest : Parsed) : Prop where
  live : ∃ event ∈ events, parse event now = some oldest
  slot : oldest.slotId = slotId
  least : ∀ event ∈ events, ∀ other ∈ parse event now, other.slotId = slotId →
    age oldest ≤ age other

theorem IsOldest.eq (distinct : (events.map (·.stateKey)).Nodup) {slotId : String}
    (h : IsOldest events now slotId member) :
    oldest (ofSlot slotId (events.filterMap (parse · now))) = some member := by
  obtain ⟨event, event_mem, parsed⟩ := h.live
  have live : member ∈ events.filterMap (parse · now) :=
    List.mem_filterMap.mpr ⟨event, event_mem, parsed⟩
  have candidate : member ∈ ofSlot slotId (events.filterMap (parse · now)) :=
    List.mem_filter.mpr ⟨live, beq_iff_eq.mpr h.slot⟩
  rw [oldest_eq_argmin]
  cases found : (ofSlot slotId (events.filterMap (parse · now))).argmin age with
  | none =>
      rw [List.argmin_eq_none] at found
      rw [found] at candidate
      cases candidate
  | some first =>
      obtain ⟨first_live, first_slot⟩ := List.mem_filter.mp (List.argmin_mem found)
      obtain ⟨event', event'_mem, parsed'⟩ := List.mem_filterMap.mp first_live
      have le : age member ≤ age first :=
        h.least event' event'_mem first parsed' (beq_iff_eq.mp first_slot)
      have ge : age first ≤ age member := List.le_of_mem_argmin candidate found
      have keys : member.stateKey = first.stateKey :=
        congrArg (fun a => (ofLex a).2) (le_antisymm le ge)
      rw [member_of_stateKey distinct live first_live keys]

theorem published_translated {focus : Json} (focused : resolveFocus member members = some focus) :
    published (translateMembership members member) = some (.arr [focus]) := by
  simp only [published, translateMembership, rewrittenContent, focused]
  rfl

end

/-- The focus of each member is that of the live set: what is live has an entry, which does not
depend on the order of the room's state, nor on what is no member of its slot, and follows the
oldest member of the slot. -/
theorem focus_of_live_set (events : List LegacyStateMemberEventIn) (now : ℕ)
    (distinct : (events.map (·.stateKey)).Nodup) :
    translateStateMemberships events now = events.filterMap (entryOf events now) ∧
    (∀ event, (entryOf events now event).isSome ↔ ¬ Dropped event now) ∧
    (∀ events', events.Perm events' →
      translateStateMemberships events' now = events'.filterMap (entryOf events now)) ∧
    (∀ before event after, events = before ++ event :: after →
      ∀ other, (Dropped event now ∨
          ∀ p ∈ parse event now, ∀ member ∈ parse other now, p.slotId ≠ member.slotId) →
        entryOf events now other = entryOf (before ++ after) now other) ∧
    ∀ event ∈ events, ∀ member ∈ parse event now, ¬ KeepsOwn member →
      ∀ oldest, IsOldest events now member.slotId oldest →
        ∀ focus ∈ oldest.ownFocus, (entryOf events now event).bind published =
          some (.arr [focus]) := by
  refine ⟨translate_eq events now, fun event => ?_, fun events' perm => ?_,
    fun before event after is other apart => ?_,
    fun event event_mem member parsed follows oldest is_oldest focus is_focus => ?_⟩
  · rw [live_iff, entryOf, Option.isSome_map, Option.isSome_iff_exists]
  · rw [translate_eq]
    congr 1
    funext event
    unfold entryOf
    cases parse event now with
    | none => rfl
    | some member =>
        exact congrArg some (translateMembership_congr (oldest_perm distinct perm _).symm)
  · subst is
    unfold entryOf
    cases parsed : parse other now with
    | none => rfl
    | some member =>
        refine congrArg some (translateMembership_congr (congrArg _ (ofSlot_insert ?_)))
        exact apart.imp id fun elsewhere p is_p => elsewhere p is_p member parsed
  · have parsed : parse event now = some member := parsed
    have focused : resolveFocus member (events.filterMap (parse · now)) = some focus := by
      have found := is_oldest.eq distinct
      unfold ofSlot at found
      unfold KeepsOwn at follows
      unfold resolveFocus
      rw [if_neg follows, found, Option.bind_some, is_focus]
      rfl
    rw [entryOf, parsed, Option.map_some, Option.bind_some]
    exact published_translated focused

/-- A member of the room-wide call, on a focus of its own. -/
def focusedMember (device focus : String) (createdTs : ℕ) : LegacyStateMemberEventIn :=
  { eventId := none, sender := "@" ++ device, stateKey := "_@" ++ device ++ "_m.call"
    originServerTs := createdTs
    content := .obj
      [("application", .str "m.call"), ("device_id", .str device), ("call_id", .str ""),
        ("created_ts", .num (.posInt createdTs)),
        ("foci_preferred", .arr [.obj [("type", .str "livekit"), ("url", .str focus)]])] }

theorem focus_of_live_set_swapped :
    translateStateMemberships [focusedMember "BOB" "b" 2, focusedMember "ALICE" "a" 1] 3 =
      [focusedMember "BOB" "b" 2, focusedMember "ALICE" "a" 1].filterMap
        (entryOf [focusedMember "ALICE" "a" 1, focusedMember "BOB" "b" 2] 3) :=
  (focus_of_live_set [focusedMember "ALICE" "a" 1, focusedMember "BOB" "b" 2] 3
    (by decide +kernel)).2.2.1 _ (List.Perm.swap _ _ _)

end MatrixRtc.RoomStateFoci

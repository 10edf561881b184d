import MatrixRtc.SessionOperations
import MatrixRtc.ListPlaces

/-!
# Holding a delayed leave

What the operations of a session mean for one member: absent, present, or held until an
instant after a delayed leave of theirs fired. The session follows this account of a key
that nobody of ours joined under, and the account says how long a hold lasts.

A complete set here has at most one event a key.
-/
namespace MatrixRtc.DelayedLeaveHolds
open MemberEvents RoomSlots SlotSessions SessionOperations StepRuns ListPlaces

/-- Where one member stands. -/
inductive Presence where
  | absent
  | present
  | held (till : ℕ)
deriving DecidableEq, Repr

/-- What an event says of the member it is filed under. -/
inductive Word where
  | join
  | delayedLeave
  | leave
deriving DecidableEq, Repr

def wordOf : RtcMembershipEvent → Word
  | .joined _ => .join
  | .left left =>
      if left.leaveReason.any fun reason => reason.code == .delayedLeave then .delayedLeave
      else .leave

theorem wordOf_left (left : LeftMembership) :
    wordOf (.left left) = .delayedLeave ∨ wordOf (.left left) = .leave := by
  simp only [wordOf]
  split_ifs
  · exact Or.inl rfl
  · exact Or.inr rfl

namespace Presence

/-- A delayed leave starts a hold of a member who is present, and changes nothing else. -/
def hear (now : ℕ) : Presence → Word → Presence
  | _, .join => .present
  | _, .leave => .absent
  | .present, .delayedLeave => .held (now + delayedLeaveHold)
  | .absent, .delayedLeave => .absent
  | .held till, .delayedLeave => .held till

/-- A complete set that says nothing of the member says that they are gone. -/
def hearSet (now : ℕ) (p : Presence) : Option Word → Presence
  | none => .absent
  | some word => p.hear now word

def expire (now : ℕ) : Presence → Presence
  | .held till => if till ≤ now then .absent else .held till
  | .absent => .absent
  | .present => .present

/-- What a complete set says of the key. -/
def said (key : String × String) (events : List RtcMembershipEvent) : Option Word :=
  (events.find? fun event => keyOf event == key).map wordOf

def after (key : String × String) (p : Presence) : Operation → Presence
  | .setCurrentState now events => p.hearSet now (said key events)
  | .update now event => if keyOf event = key then p.hear now (wordOf event) else p
  | .expireHolds now => p.expire now
  | .join _ _ | .leave | .setSlotState _ | .forgetSlotState | .setRoomEncryption _
  | .setRoomMembers _ => p

end Presence

/-- Where the session has the member. -/
def presence (s : SlotSession) (key : String × String) : Presence :=
  if key ∈ s.candidates.map candidateKey then
    match s.held.lookup key with
    | some till => .held till
    | none => .present
  else .absent

/-- A set has at most one event a key, and no participation of ours is under this one. -/
def Regular (key : String × String) : Operation → Prop
  | .setCurrentState _ events => (events.map keyOf).Nodup
  | .join own _ => (own.userId, own.memberId) ≠ key
  | .leave | .update _ _ | .expireHolds _ | .setSlotState _ | .forgetSlotState
  | .setRoomEncryption _ | .setRoomMembers _ => True

instance (key : String × String) : DecidablePred (Regular key)
  | .setCurrentState _ events => inferInstanceAs (Decidable (events.map keyOf).Nodup)
  | .join own _ => inferInstanceAs (Decidable ((own.userId, own.memberId) ≠ key))
  | .leave | .update _ _ | .expireHolds _ | .setSlotState _ | .forgetSlotState
  | .setRoomEncryption _ | .setRoomMembers _ => isTrue trivial

/-- What the account of a key rests on: one hold a key, and a key that is not ours. -/
structure Accounted (key : String × String) (s : SlotSession) : Prop where
  once : (s.held.map Prod.fst).Nodup
  foreign : ∀ own, s.ownParticipation = some own → (own.userId, own.memberId) ≠ key

section Holds
variable {s : SlotSession} {key other : String × String} {till : ℕ}

theorem presence_absent (h : key ∉ s.candidates.map candidateKey) : presence s key = .absent :=
  if_neg h

theorem presence_of_mem (h : key ∈ s.candidates.map candidateKey) :
    presence s key = match s.held.lookup key with
      | some till => .held till
      | none => .present :=
  if_pos h

theorem presence_ne_absent :
    presence s key ≠ .absent ↔ key ∈ s.candidates.map candidateKey := by
  constructor
  · intro present
    by_contra gone
    exact present (presence_absent gone)
  · intro there
    rw [presence_of_mem there]
    cases s.held.lookup key <;> simp

theorem presence_congr {t : SlotSession}
    (keys : key ∈ t.candidates.map candidateKey ↔ key ∈ s.candidates.map candidateKey)
    (held : t.held.lookup key = s.held.lookup key) : presence t key = presence s key := by
  by_cases there : key ∈ s.candidates.map candidateKey
  · rw [presence_of_mem there, presence_of_mem (keys.mpr there), held]
  · rw [presence_absent there, presence_absent fun h => there (keys.mp h)]

@[simp] theorem lookup_hold_self : (s.hold key till).held.lookup key = some till := by
  simp [SlotSession.hold]

theorem lookup_hold_ne (ne : key ≠ other) :
    (s.hold other till).held.lookup key = s.held.lookup key := by
  have no : (key == other) = false := by simpa using ne
  simp only [SlotSession.hold, List.lookup_cons, no]
  exact lookup_filter_ne ne

@[simp] theorem lookup_unhold_self : (s.unhold key).held.lookup key = none := by
  rw [lookup_eq_none]
  intro entry member
  exact (mem_unhold.mp member).2

theorem lookup_unhold_ne (ne : key ≠ other) :
    (s.unhold other).held.lookup key = s.held.lookup key :=
  lookup_filter_ne ne

theorem once_unhold (once : (s.held.map Prod.fst).Nodup) :
    ((s.unhold key).held.map Prod.fst).Nodup :=
  once.sublist (List.filter_sublist.map _)

theorem once_hold (once : (s.held.map Prod.fst).Nodup) :
    ((s.hold key till).held.map Prod.fst).Nodup := by
  simp only [SlotSession.hold, List.map_cons, List.nodup_cons]
  refine ⟨fun again => ?_, once.sublist (List.filter_sublist.map _)⟩
  obtain ⟨entry, member, same⟩ := List.mem_map.mp again
  have ne : entry.1 ≠ key := by simpa using (List.mem_filter.mp member).2
  exact ne same

end Holds

section Recording
variable {s : SlotSession} {now : ℕ} {key : String × String} {event : RtcMembershipEvent}

/-- Whether a leave of the key is held is a matter of its reason alone. -/
theorem holds_iff {left : LeftMembership} (acc : Accounted key s)
    (same : keyOf (.left left) = key) :
    s.holds left = true ↔ wordOf (.left left) = .delayedLeave := by
  have foreign : (s.ownParticipation.any fun own =>
      left.sender == own.userId && left.stickyKey == own.memberId) = false := by
    cases ours : s.ownParticipation with
    | none => rfl
    | some own =>
        have ne := acc.foreign own ours
        rw [← same] at ne
        simp only [keyOf, ne_eq, Prod.mk.injEq, not_and] at ne
        simp only [Option.any_some, Bool.and_eq_false_iff, beq_eq_false_iff_ne]
        by_cases sender : left.sender = own.userId
        · exact Or.inr fun sticky => ne sender.symm sticky.symm
        · exact Or.inl sender
  simp only [SlotSession.holds, foreign, Bool.not_false, Bool.and_true, wordOf]
  split_ifs with delayed <;> simp [delayed]

theorem recordMembershipEvent_accounted (acc : Accounted key s) :
    Accounted key (s.recordMembershipEvent now event) := by
  cases event with
  | joined joined => exact ⟨once_unhold acc.once, acc.foreign⟩
  | left left =>
      simp only [SlotSession.recordMembershipEvent]
      split_ifs
      · exact acc
      · exact ⟨once_hold acc.once, acc.foreign⟩
      · exact ⟨once_unhold acc.once, acc.foreign⟩

theorem record_other (other : keyOf event ≠ key) :
    presence (s.recordMembershipEvent now event) key = presence s key := by
  cases event with
  | joined joined =>
      apply presence_congr
      · exact mem_keys_replaceOrPush.trans (or_iff_right other.symm)
      · exact lookup_unhold_ne other.symm
  | left left =>
      simp only [SlotSession.recordMembershipEvent]
      split_ifs
      · rfl
      · exact presence_congr Iff.rfl (lookup_hold_ne other.symm)
      · exact presence_congr (mem_keys_filter.trans (and_iff_left other.symm))
          (lookup_unhold_ne other.symm)

theorem record_same (acc : Accounted key s) (same : keyOf event = key) :
    presence (s.recordMembershipEvent now event) key =
      (presence s key).hear now (wordOf event) := by
  cases event with
  | joined joined =>
      have there : key ∈ (s.recordMembershipEvent now (.joined joined)).candidates.map
          candidateKey := mem_keys_replaceOrPush.mpr (Or.inl same.symm)
      have free : (s.recordMembershipEvent now (.joined joined)).held.lookup key = none := by
        subst same
        exact lookup_unhold_self
      rw [presence_of_mem there, free]
      cases presence s key <;> rfl
  | left left =>
      have holds := holds_iff acc same
      have same : (left.sender, left.stickyKey) = key := same
      subst same
      simp only [SlotSession.recordMembershipEvent]
      split_ifs with kept already
      · obtain ⟨known, held⟩ := Bool.and_eq_true_iff.mp kept
        obtain ⟨till, running⟩ := Option.isSome_iff_exists.mp already
        rw [presence_of_mem (any_under.mp known), holds.mp held, running]
        rfl
      · obtain ⟨known, held⟩ := Bool.and_eq_true_iff.mp kept
        have there := any_under.mp known
        have kept_there : (left.sender, left.stickyKey) ∈ (s.hold (left.sender, left.stickyKey)
            (now + delayedLeaveHold)).candidates.map candidateKey := there
        rw [Option.not_isSome_iff_eq_none] at already
        rw [presence_of_mem kept_there, lookup_hold_self, presence_of_mem there, already,
          holds.mp held]
        rfl
      · rw [presence_absent fun member => (mem_keys_filter.mp member).2 rfl]
        rw [Bool.and_eq_true, any_under, not_and_or] at kept
        rcases kept with unknown | applied
        · rw [presence_absent unknown]
          rcases wordOf_left left with word | word <;> rw [word] <;> rfl
        · rcases wordOf_left left with word | word
          · exact absurd (holds.mpr word) applied
          · rw [word]
            cases presence s (left.sender, left.stickyKey) <;> rfl

end Recording

section Rebuilding
variable {previous s : SlotSession} {now : ℕ} {key : String × String}
  {event : RtcMembershipEvent} {events : List RtcMembershipEvent}

theorem rebuild_accounted (acc : Accounted key s) :
    Accounted key (SlotSession.rebuild previous now s event) := by
  unfold SlotSession.rebuild
  cases SlotSession.heldCandidate previous s event with
  | none => exact recordMembershipEvent_accounted acc
  | some kept => exact ⟨once_hold acc.once, acc.foreign⟩

theorem foldl_rebuild_accounted (acc : Accounted key s) :
    Accounted key (events.foldl (SlotSession.rebuild previous now) s) := by
  induction events generalizing s with
  | nil => exact acc
  | cons event rest ih => exact ih (rebuild_accounted acc)

theorem rebuild_other (other : keyOf event ≠ key) :
    presence (SlotSession.rebuild previous now s event) key = presence s key := by
  unfold SlotSession.rebuild
  cases kept : SlotSession.heldCandidate previous s event with
  | none => exact record_other other
  | some pair =>
      obtain ⟨candidate, left⟩ := pair
      obtain ⟨rfl, -, same, -⟩ := heldCandidate_key kept
      apply presence_congr
      · have ne : key ≠ candidateKey candidate := by
          rw [same]
          exact other.symm
        simp [ne]
      · exact lookup_hold_ne other.symm

theorem foldl_rebuild_other (others : ∀ event ∈ events, keyOf event ≠ key) :
    presence (events.foldl (SlotSession.rebuild previous now) s) key = presence s key := by
  induction events generalizing s with
  | nil => rfl
  | cons event rest ih =>
      rw [List.foldl_cons, ih fun e member => others e (List.mem_cons_of_mem _ member)]
      exact rebuild_other (others event List.mem_cons_self)

/-- The one event of the member is heard from where the previous set had them. -/
theorem rebuild_same (acc : Accounted key s) (accp : Accounted key previous)
    (same : keyOf event = key) (gone : presence s key = .absent) :
    presence (SlotSession.rebuild previous now s event) key =
      (presence previous key).hear now (wordOf event) := by
  unfold SlotSession.rebuild
  cases kept : SlotSession.heldCandidate previous s event with
  | some pair =>
      obtain ⟨candidate, left⟩ := pair
      obtain ⟨rfl, holds, eq, found⟩ := heldCandidate_key kept
      have word := (holds_iff acc same).mp holds
      have same : (left.sender, left.stickyKey) = key := same
      subst same
      have known : (left.sender, left.stickyKey) ∈ previous.candidates.map candidateKey :=
        List.mem_map.mpr ⟨candidate, List.mem_of_find?_eq_some found, eq⟩
      have there : (left.sender, left.stickyKey) ∈
          (s.candidates ++ [candidate]).map candidateKey := by
        rw [List.map_append]
        exact List.mem_append_right _ (List.mem_singleton.mpr eq.symm)
      rw [presence_of_mem there, presence_of_mem known, word]
      dsimp only
      rw [lookup_hold_self]
      cases previous.held.lookup (left.sender, left.stickyKey) <;> rfl
  | none =>
      rw [record_same acc same, gone]
      cases event with
      | joined joined => cases presence previous key <;> rfl
      | left left =>
          rcases wordOf_left left with word | word
          · have unknown : key ∉ previous.candidates.map candidateKey := by
              intro known
              have holds := (holds_iff acc same).mpr word
              have same : (left.sender, left.stickyKey) = key := same
              subst same
              simp only [SlotSession.heldCandidate, holds, if_true, Option.map_eq_none_iff,
                List.find?_eq_none] at kept
              obtain ⟨c, member, eq⟩ := List.mem_map.mp known
              exact kept c member (under_iff.mpr eq)
            rw [presence_absent unknown]
          · rw [word]
            cases presence previous key <;> rfl

theorem setCurrentState_presence (acc : Accounted key previous)
    (distinct : (events.map keyOf).Nodup) :
    presence (previous.setCurrentState now events) key =
      (presence previous key).hearSet now (Presence.said key events) := by
  have cleared : Accounted key { previous with candidates := [], held := [] } :=
    ⟨List.nodup_nil, acc.foreign⟩
  change presence (events.foldl (SlotSession.rebuild previous now) _) key = _
  by_cases named : ∃ event ∈ events, keyOf event = key
  · obtain ⟨event, member, same⟩ := named
    obtain ⟨before, rest, rfl⟩ := List.append_of_mem member
    have split := List.nodup_append.mp (by rw [List.map_append] at distinct; exact distinct)
    have earlier : ∀ e ∈ before, keyOf e ≠ key := by
      intro e there eq
      exact split.2.2 _ (List.mem_map_of_mem there) _ (List.mem_map_of_mem List.mem_cons_self)
        (eq.trans same.symm)
    have later : ∀ e ∈ rest, keyOf e ≠ key := by
      intro e there eq
      have fresh := (List.nodup_cons.mp split.2.1).1
      exact fresh (List.mem_map.mpr ⟨e, there, eq.trans same.symm⟩)
    have found : Presence.said key (before ++ event :: rest) = some (wordOf event) := by
      have none : before.find? (fun e => keyOf e == key) = none := by
        apply List.find?_eq_none.mpr
        intro e there
        simpa using earlier e there
      simp [Presence.said, List.find?_append, none, same]
    rw [List.foldl_append, List.foldl_cons, foldl_rebuild_other later,
      rebuild_same (foldl_rebuild_accounted cleared) acc same, found]
    · rfl
    · exact foldl_rebuild_other earlier
  · have others : ∀ event ∈ events, keyOf event ≠ key := fun e member eq => named ⟨e, member, eq⟩
    have silent : Presence.said key events = none := by
      simp only [Presence.said, Option.map_eq_none_iff, List.find?_eq_none]
      intro e member
      simpa using others e member
    rw [foldl_rebuild_other others, silent]
    rfl

end Rebuilding

section Expiring
variable {s : SlotSession} {now : ℕ} {key : String × String}

theorem expireHolds_accounted (acc : Accounted key s) : Accounted key (s.expireHolds now) := by
  unfold SlotSession.expireHolds
  dsimp only
  split_ifs
  · exact acc
  · exact ⟨acc.once.sublist (List.filter_sublist.map _), acc.foreign⟩

theorem any_expired (acc : Accounted key s) :
    ((s.held.filter fun entry => entry.2 ≤ now).any fun gone => gone.1 == key) = true ↔
      ∃ till, s.held.lookup key = some till ∧ till ≤ now := by
  simp only [List.any_eq_true, List.mem_filter, decide_eq_true_eq, beq_iff_eq]
  constructor
  · rintro ⟨⟨_, till⟩, ⟨member, past⟩, rfl⟩
    exact ⟨till, lookup_of_mem acc.once member, past⟩
  · rintro ⟨till, found, past⟩
    exact ⟨(key, till), ⟨mem_of_lookup found, past⟩, rfl⟩

theorem expireHolds_presence (acc : Accounted key s) :
    presence (s.expireHolds now) key = (presence s key).expire now := by
  have keys : key ∈ (s.expireHolds now).candidates.map candidateKey ↔
      key ∈ s.candidates.map candidateKey ∧
        ¬ ∃ till, s.held.lookup key = some till ∧ till ≤ now := by
    rw [← any_expired acc]
    unfold SlotSession.expireHolds
    dsimp only
    split_ifs with none
    · rw [List.isEmpty_iff] at none
      simp [none]
    · simp only [SlotSession.refresh, List.mem_map, List.mem_filter]
      constructor
      · rintro ⟨c, ⟨member, kept⟩, rfl⟩
        refine ⟨⟨c, member, rfl⟩, fun expired => ?_⟩
        obtain ⟨gone, there, same⟩ := List.any_eq_true.mp expired
        rw [Bool.not_eq_true', List.any_eq_false] at kept
        exact kept gone there (under_iff.mpr (beq_iff_eq.mp same).symm)
      · rintro ⟨⟨c, member, rfl⟩, running⟩
        refine ⟨c, ⟨member, ?_⟩, rfl⟩
        rw [Bool.not_eq_true', List.any_eq_false]
        intro gone there under
        exact running (List.any_eq_true.mpr ⟨gone, there, beq_iff_eq.mpr (under_iff.mp under).symm⟩)
  by_cases there : key ∈ s.candidates.map candidateKey
  · rw [presence_of_mem there]
    cases found : s.held.lookup key with
    | none =>
        have stays := keys.mpr ⟨there, by simp [found]⟩
        rw [presence_of_mem stays]
        have free : (s.expireHolds now).held.lookup key = none := by
          rw [lookup_eq_none] at found ⊢
          intro entry member
          unfold SlotSession.expireHolds at member
          dsimp only at member
          split_ifs at member
          · exact found entry member
          · exact found entry (List.mem_of_mem_filter member)
        rw [free]
        rfl
    | some till =>
        simp only [Presence.expire]
        split_ifs with past
        · exact presence_absent fun member => (keys.mp member).2 ⟨till, found, past⟩
        · have running : ¬ ∃ t, s.held.lookup key = some t ∧ t ≤ now := by
            rintro ⟨t, same, done⟩
            cases found.symm.trans same
            exact past done
          rw [presence_of_mem (keys.mpr ⟨there, running⟩)]
          have kept : (s.expireHolds now).held.lookup key = some till := by
            apply lookup_of_mem (expireHolds_accounted acc).once
            unfold SlotSession.expireHolds
            dsimp only
            split_ifs
            · exact mem_of_lookup found
            · refine List.mem_filter.mpr ⟨mem_of_lookup found, ?_⟩
              rw [← any_expired acc, Bool.not_eq_true] at running
              rw [running]
              rfl
          rw [kept]
  · rw [presence_absent there, presence_absent fun member => there (keys.mp member).1]
    rfl

end Expiring

section Operations
variable {s : SlotSession} {key : String × String} {op : Operation}

theorem perform_accounted (acc : Accounted key s) (regular : Regular key op) :
    Accounted key (perform s op) := by
  cases op with
  | join own sent =>
      simp only [perform]
      split_ifs
      · refine ⟨acc.once, fun own' same => ?_⟩
        cases same
        exact regular
      · exact acc
  | leave =>
      simp only [perform]
      split_ifs
      · exact ⟨acc.once, fun own same => by cases same⟩
      · exact acc
  | setCurrentState now events =>
      have cleared : Accounted key { s with candidates := [], held := [] } :=
        ⟨List.nodup_nil, acc.foreign⟩
      have rebuilt : Accounted key (events.foldl (SlotSession.rebuild s now) _) :=
        foldl_rebuild_accounted cleared
      exact ⟨rebuilt.once, rebuilt.foreign⟩
  | update now event =>
      have recorded : Accounted key (s.recordMembershipEvent now event) :=
        recordMembershipEvent_accounted acc
      simp only [perform, update]
      split_ifs
      · exact ⟨recorded.once, recorded.foreign⟩
      · exact recorded
  | expireHolds now => exact expireHolds_accounted acc
  | setSlotState state =>
      simp only [perform, SlotSession.setSlotState]
      split_ifs
      · exact acc
      · exact ⟨acc.once, fun own same => by cases same⟩
      · exact ⟨acc.once, acc.foreign⟩
  | forgetSlotState =>
      simp only [perform, SlotSession.forgetSlotState]
      split_ifs <;> exact ⟨acc.once, acc.foreign⟩
  | setRoomEncryption encryption =>
      simp only [perform, SlotSession.setRoomEncryption]
      split_ifs <;> exact ⟨acc.once, acc.foreign⟩
  | setRoomMembers members =>
      simp only [perform, SlotSession.setRoomMembers]
      split_ifs <;> exact ⟨acc.once, acc.foreign⟩

/-- The session follows the account of the key. -/
theorem perform_presence (acc : Accounted key s) (regular : Regular key op) :
    presence (perform s op) key = (presence s key).after key op := by
  cases op with
  | setCurrentState now events => exact setCurrentState_presence acc regular
  | update now event =>
      have recorded : presence (update s now event) key =
          presence (s.recordMembershipEvent now event) key := by
        unfold update
        split_ifs <;> rfl
      refine recorded.trans ?_
      simp only [Presence.after]
      split_ifs with same
      · exact record_same acc same
      · exact record_other same
  | expireHolds now => exact expireHolds_presence acc
  | join own sent | leave =>
      simp only [perform]
      split_ifs <;> rfl
  | setSlotState state =>
      simp only [perform, SlotSession.setSlotState]
      split_ifs <;> rfl
  | forgetSlotState =>
      simp only [perform, SlotSession.forgetSlotState]
      split_ifs <;> rfl
  | setRoomEncryption encryption =>
      simp only [perform, SlotSession.setRoomEncryption]
      split_ifs <;> rfl
  | setRoomMembers members =>
      simp only [perform, SlotSession.setRoomMembers]
      split_ifs <;> rfl

end Operations

def step (s : SlotSession) (op : Operation) : Option SlotSession := some (perform s op)

theorem run_presence {key : String × String} {ops : List Operation} {s t : SlotSession}
    (acc : Accounted key s) (regular : ∀ op ∈ ops, Regular key op)
    (h : run step s ops = some t) :
    Accounted key t ∧ presence t key = ops.foldl (Presence.after key) (presence s key) := by
  induction ops generalizing s with
  | nil =>
      cases h
      exact ⟨acc, rfl⟩
  | cons op rest ih =>
      obtain ⟨u, taken, ran⟩ := run_cons.mp h
      cases taken
      have now := regular op List.mem_cons_self
      rw [List.foldl_cons, ← perform_presence acc now]
      exact ih (perform_accounted acc now)
        (fun op member => regular op (List.mem_cons_of_mem _ member)) ran

/-- The operation brings an event of the key that says this. -/
def Carries (key : String × String) (now : ℕ) (word : Word) : Operation → Prop
  | .setCurrentState time events =>
      time = now ∧ ∃ event ∈ events, keyOf event = key ∧ wordOf event = word
  | .update time event => time = now ∧ keyOf event = key ∧ wordOf event = word
  | .join _ _ | .leave | .expireHolds _ | .setSlotState _ | .forgetSlotState
  | .setRoomEncryption _ | .setRoomMembers _ => False

/-- The operation is a complete set without any event of the key. -/
def Omits (key : String × String) : Operation → Prop
  | .setCurrentState _ events => ∀ event ∈ events, keyOf event ≠ key
  | .join _ _ | .leave | .update _ _ | .expireHolds _ | .setSlotState _ | .forgetSlotState
  | .setRoomEncryption _ | .setRoomMembers _ => False

/-- The operation is an expiry at the end of the hold or later. -/
def ends (till : ℕ) : Operation → Bool
  | .expireHolds now => till ≤ now
  | .join _ _ | .leave | .setCurrentState _ _ | .update _ _ | .setSlotState _ | .forgetSlotState
  | .setRoomEncryption _ | .setRoomMembers _ => false

/-- The operation says nothing of the key. -/
def Silent (key : String × String) (op : Operation) : Prop :=
  ¬ Omits key op ∧ ∀ now word, ¬ Carries key now word op

/-- The operation says nothing of the key but that its delayed leave fired. -/
def Quiet (key : String × String) (op : Operation) : Prop :=
  ¬ Omits key op ∧ ∀ now word, Carries key now word op → word = .delayedLeave

section Accounts
variable {key : String × String} {now : ℕ} {word : Word} {op : Operation} {p : Presence}

theorem said_of_mem {events : List RtcMembershipEvent} {event : RtcMembershipEvent}
    (distinct : (events.map keyOf).Nodup) (member : event ∈ events) (same : keyOf event = key) :
    Presence.said key events = some (wordOf event) := by
  induction events with
  | nil => cases member
  | cons first rest ih =>
      obtain ⟨fresh, tail⟩ := List.nodup_cons.mp distinct
      rcases List.mem_cons.mp member with rfl | later
      · simp [Presence.said, same]
      · have other : keyOf first ≠ key := by
          intro eq
          exact fresh (List.mem_map.mpr ⟨event, later, same.trans eq.symm⟩)
        have found := ih tail later
        simp only [Presence.said] at found ⊢
        rw [List.find?_cons_of_neg (by simpa using other)]
        exact found

theorem after_carries (regular : Regular key op) (carries : Carries key now word op) :
    p.after key op = p.hear now word := by
  cases op with
  | setCurrentState time events =>
      obtain ⟨rfl, event, member, same, rfl⟩ := carries
      simp only [Presence.after, said_of_mem regular member same]
      rfl
  | update time event =>
      obtain ⟨rfl, same, rfl⟩ := carries
      exact if_pos same
  | join | leave | expireHolds | setSlotState | forgetSlotState | setRoomEncryption
  | setRoomMembers => cases carries

theorem after_omits (omits : Omits key op) : p.after key op = .absent := by
  cases op with
  | setCurrentState time events =>
      have silent : Presence.said key events = none := by
        simp only [Presence.said, Option.map_eq_none_iff, List.find?_eq_none]
        intro e member
        simpa using omits e member
      simp only [Presence.after, silent]
      rfl
  | update | join | leave | expireHolds | setSlotState | forgetSlotState | setRoomEncryption
  | setRoomMembers => cases omits

/-- What an operation that only repeats the delayed leave does to one who is held. -/
theorem after_quiet {till : ℕ} (regular : Regular key op) (quiet : Quiet key op) :
    (Presence.held till).after key op = if ends till op then .absent else .held till := by
  cases op with
  | setCurrentState time events =>
      have named := quiet.1
      simp only [Omits, not_forall, ne_eq, not_not] at named
      obtain ⟨event, member, same⟩ := named
      have word := quiet.2 time (wordOf event) ⟨rfl, event, member, same, rfl⟩
      exact after_carries regular ⟨rfl, event, member, same, word⟩
  | update time event =>
      by_cases same : keyOf event = key
      · have word := quiet.2 time (wordOf event) ⟨rfl, same, rfl⟩
        exact after_carries regular ⟨rfl, same, word⟩
      · exact if_neg same
  | expireHolds now =>
      by_cases past : till ≤ now <;> simp [Presence.after, Presence.expire, ends, past]
  | join | leave | setSlotState | forgetSlotState | setRoomEncryption | setRoomMembers => rfl

theorem absent_after_quiet (regular : Regular key op) (quiet : Quiet key op) :
    Presence.absent.after key op = .absent := by
  cases op with
  | setCurrentState time events =>
      have named := quiet.1
      simp only [Omits, not_forall, ne_eq, not_not] at named
      obtain ⟨event, member, same⟩ := named
      have word := quiet.2 time (wordOf event) ⟨rfl, event, member, same, rfl⟩
      exact after_carries regular ⟨rfl, event, member, same, word⟩
  | update time event =>
      by_cases same : keyOf event = key
      · have word := quiet.2 time (wordOf event) ⟨rfl, same, rfl⟩
        exact after_carries regular ⟨rfl, same, word⟩
      · exact if_neg same
  | join | leave | expireHolds | setSlotState | forgetSlotState | setRoomEncryption
  | setRoomMembers => rfl

theorem present_after_silent (silent : Silent key op) :
    Presence.present.after key op = .present := by
  cases op with
  | setCurrentState time events =>
      have named := silent.1
      simp only [Omits, not_forall, ne_eq, not_not] at named
      obtain ⟨event, member, same⟩ := named
      exact absurd ⟨rfl, event, member, same, rfl⟩ (silent.2 time (wordOf event))
  | update time event =>
      have other : keyOf event ≠ key := fun same => silent.2 time (wordOf event) ⟨rfl, same, rfl⟩
      exact if_neg other
  | join | leave | expireHolds | setSlotState | forgetSlotState | setRoomEncryption
  | setRoomMembers => rfl

theorem foldl_absent {ops : List Operation} (regular : ∀ op ∈ ops, Regular key op)
    (quiet : ∀ op ∈ ops, Quiet key op) :
    ops.foldl (Presence.after key) .absent = .absent := by
  induction ops with
  | nil => rfl
  | cons op rest ih =>
      rw [List.foldl_cons, absent_after_quiet (regular op List.mem_cons_self)
        (quiet op List.mem_cons_self)]
      exact ih (fun op member => regular op (List.mem_cons_of_mem _ member))
        fun op member => quiet op (List.mem_cons_of_mem _ member)

theorem foldl_present {ops : List Operation} (silent : ∀ op ∈ ops, Silent key op) :
    ops.foldl (Presence.after key) .present = .present := by
  induction ops with
  | nil => rfl
  | cons op rest ih =>
      rw [List.foldl_cons, present_after_silent (silent op List.mem_cons_self)]
      exact ih fun op member => silent op (List.mem_cons_of_mem _ member)

/-- One who is held is so until the first expiry at the end of the hold or later. -/
theorem foldl_held {ops : List Operation} {till : ℕ} (regular : ∀ op ∈ ops, Regular key op)
    (quiet : ∀ op ∈ ops, Quiet key op) :
    ops.foldl (Presence.after key) (.held till) =
      if ops.any (ends till) then .absent else .held till := by
  induction ops with
  | nil => rfl
  | cons op rest ih =>
      have regular' : ∀ op ∈ rest, Regular key op :=
        fun op member => regular op (List.mem_cons_of_mem _ member)
      have quiet' : ∀ op ∈ rest, Quiet key op :=
        fun op member => quiet op (List.mem_cons_of_mem _ member)
      rw [List.foldl_cons, after_quiet (regular op List.mem_cons_self)
        (quiet op List.mem_cons_self), List.any_cons]
      cases past : ends till op with
      | true => exact foldl_absent regular' quiet'
      | false => exact ih regular' quiet'

end Accounts

/-- A member joins, and after nothing was said of them for a while their delayed leave
fires. They stay a candidate, however often the leave is repeated, until the first expiry
that comes when the hold has run out. A join cancels the hold, and any other leave, or a
complete set without them, removes them at once. -/
theorem delayed_leave_hold_exact (slot : SlotKnowledge) (roomMembers : Option (Finset String))
    (encryption : RoomEncryption) (key : String × String) (before between after : List Operation)
    (joining leaving : Operation) (joinedAt since : ℕ) {s : SlotSession}
    (regular : ∀ op ∈ before ++ joining :: between ++ leaving :: after, Regular key op)
    (joined : Carries key joinedAt .join joining) (silent : ∀ op ∈ between, Silent key op)
    (left : Carries key since .delayedLeave leaving) (quiet : ∀ op ∈ after, Quiet key op)
    (ran : run step (fresh slot roomMembers encryption)
      (before ++ joining :: between ++ leaving :: after) = some s) :
    (key ∈ s.candidates.map candidateKey ↔
        ∀ now, .expireHolds now ∈ after → now < since + delayedLeaveHold) ∧
      ∀ op, Regular key op →
        (∀ now, Carries key now .join op → key ∈ (perform s op).candidates.map candidateKey ∧
          ∀ entry ∈ (perform s op).held, entry.1 ≠ key) ∧
        (∀ now, Carries key now .leave op → key ∉ (perform s op).candidates.map candidateKey) ∧
        (Omits key op → key ∉ (perform s op).candidates.map candidateKey) := by
  have start : Accounted key (fresh slot roomMembers encryption) :=
    ⟨List.nodup_nil, fun own same => by cases same⟩
  obtain ⟨acc, stands⟩ := run_presence start regular ran
  have at_join := regular joining (by simp)
  have at_leave := regular leaving (by simp)
  have held : presence s key =
      if after.any (ends (since + delayedLeaveHold)) then .absent
      else .held (since + delayedLeaveHold) := by
    rw [stands, List.foldl_append, List.foldl_append, List.foldl_cons, List.foldl_cons,
      after_carries at_join joined]
    have there : ∀ p : Presence, p.hear joinedAt .join = .present := fun p => by cases p <;> rfl
    rw [there, foldl_present silent, after_carries at_leave left]
    exact foldl_held (fun op member => regular op (by simp [member])) quiet
  constructor
  · rw [← presence_ne_absent, held]
    have expiry : (∀ now, .expireHolds now ∈ after → now < since + delayedLeaveHold) ↔
        after.any (ends (since + delayedLeaveHold)) = false := by
      rw [List.any_eq_false]
      constructor
      · intro early op member
        cases op with
        | expireHolds now => simpa [ends] using early now member
        | join | leave | setCurrentState | update | setSlotState | forgetSlotState
        | setRoomEncryption | setRoomMembers => simp [ends]
      · intro none now member
        simpa [ends] using none _ member
    rw [expiry]
    cases after.any (ends (since + delayedLeaveHold)) <;> simp
  · intro op regular'
    have next := perform_presence acc regular'
    refine ⟨fun now carries => ?_, fun now carries => ?_, fun omits => ?_⟩
    · rw [after_carries regular' carries] at next
      have present : presence (perform s op) key = .present := by
        rw [next]
        cases presence s key <;> rfl
      have there : key ∈ (perform s op).candidates.map candidateKey := by
        rw [← presence_ne_absent, present]
        simp
      refine ⟨there, ?_⟩
      rw [presence_of_mem there] at present
      rw [← lookup_eq_none]
      cases found : (perform s op).held.lookup key with
      | none => rfl
      | some till =>
          rw [found] at present
          cases present
    · rw [after_carries regular' carries] at next
      have gone : presence (perform s op) key = .absent := by
        rw [next]
        cases presence s key <;> rfl
      rw [← presence_ne_absent, gone]
      simp
    · rw [after_omits omits] at next
      rw [← presence_ne_absent, next]
      simp

/-- Bob's delayed leave fires at 5 ms, and an expiry at 10004 ms comes inside the hold. -/
theorem bob_held_at_10004 :
    ∃ s, run step (fresh .unsupplied none .unknown)
        [.update 0 (.joined bob), .update 5 (.left (bobLeaves .delayedLeave)),
          .expireHolds 10004] = some s ∧
      (candidateKey bob ∈ s.candidates.map candidateKey ↔
        ∀ now, .expireHolds now ∈ [Operation.expireHolds 10004] → now < 5 + delayedLeaveHold) := by
  refine ⟨_, rfl, ?_⟩
  refine (delayed_leave_hold_exact .unsupplied none .unknown (candidateKey bob) [] []
    [.expireHolds 10004] (.update 0 (.joined bob)) (.update 5 (.left (bobLeaves .delayedLeave)))
    0 5 (by decide) ⟨rfl, rfl, rfl⟩ ?_ ⟨rfl, rfl, rfl⟩ ?_ rfl).1
  · intro op member
    cases member
  · intro op member
    rw [List.mem_singleton.mp member]
    exact ⟨fun omits => omits, fun _ _ carries => carries.elim⟩

end MatrixRtc.DelayedLeaveHolds

import MatrixRtc.HandOrder
import MatrixRtc.ListPlaces

/-!
# What one user's events do to another's hands and reactions

Two runs of a slot side by side: as the room tells it, and without the memberships, the events
and the redactions of one user. Hands, known membership events and the times of the last
reactions are kept under the `member.id` a membership states itself. As long as the memberships
of the user keep to ids of their own, the other users' hands and reactions are those of the run
without it.
-/
namespace MatrixRtc.UserIsolation
open MemberEvents JsonValues Tables DirectCalls RaisedHands CallRooms
open RaisedHands.ReactionsState CallRooms.CallState
open HandOrder (peer)
open ListPlaces (find?_congr)

variable {graphemes : String → List String} {author : String → String} {v : String}

/-- A slot with no members yet, whose reactions are configured so. -/
def fresh (config : ReactionsConfig) : CallState := ⟨ReactionsState.new.configure config, []⟩

/-- A move without what `v` has in it. -/
def withoutUser (author : String → String) (v : String) : RoomMove → Option RoomMove
  | .roster members => some (.roster (members.filter (·.sender != v)))
  | .timeline events now => some (.timeline (events.filter (·.sender != v)) now)
  | .relations target events now =>
      some (.relations target (events.filter (·.sender != v)) now)
  | .redacted eventId => if author eventId = v then none else some (.redacted eventId)
  | .own memberId userId now move => some (.own memberId userId now move)

/-- The events of the move are their senders', and it is none of our own. -/
def Told (author : String → String) : RoomMove → Prop
  | .roster members => ∀ a ∈ members, ∀ e ∈ a.membershipEventId, author e = a.sender
  | .timeline events _ => ∀ e ∈ events, author e.eventId = e.sender
  | .relations _ events _ => ∀ e ∈ events, author e.eventId = e.sender
  | .redacted _ => True
  | .own .. => False

/-- No membership of `v` states the id of another user's. -/
def Apart (v : String) (members : List JoinedMembership) : Prop :=
  ∀ a ∈ members, ∀ b ∈ members, a.sender = v → b.sender ≠ v → a.memberId ≠ b.memberId

/-- In each roster, and from each to the next, `v` keeps to ids of its own. -/
def ApartFrom (v : String) : List JoinedMembership → List RoomMove → Prop
  | _, [] => True
  | members, .roster next :: moves => Apart v (members ++ next) ∧ ApartFrom v next moves
  | members, _ :: moves => ApartFrom v members moves

/-- Some member states the id. -/
def Carried (members : List JoinedMembership) (memberId : String) : Prop :=
  ∃ a ∈ members, a.memberId = memberId

/-- A membership of `v` states the id. -/
def Of (v : String) (members : List JoinedMembership) (memberId : String) : Prop :=
  ∃ a ∈ members, a.sender = v ∧ a.memberId = memberId

/-- The run without `v` has of the others what the run with `v` has, and what `v` has there is
under ids of its own. -/
structure Alike (author : String → String) (v : String) (s t : CallState) : Prop where
  members : t.members = s.members.filter (·.sender != v)
  config : t.reactions.config = s.reactions.config
  apart : Apart v s.members
  authored : ∀ a ∈ s.members, ∀ e ∈ a.membershipEventId, author e = a.sender
  hands : ∀ k, ¬Of v s.members k →
    t.reactions.raisedHands.lookup k = s.reactions.raisedHands.lookup k
  noHands : ∀ k, Of v s.members k → t.reactions.raisedHands.lookup k = none
  reactedAt : ∀ k, ¬Of v s.members k →
    t.reactions.lastReactionAt.lookup k = s.reactions.lastReactionAt.lookup k
  known : ∀ k, ¬Of v s.members k →
    t.reactions.knownMembershipEvents.lookup k = s.reactions.knownMembershipEvents.lookup k
  handOwner : ∀ k hand, s.reactions.raisedHands.lookup k = some hand →
    Carried s.members k ∧ author hand.reactionEventId = hand.sender ∧
      (hand.sender = v ↔ Of v s.members k)
  knownOwner : ∀ k events, s.reactions.knownMembershipEvents.lookup k = some events →
    Carried s.members k ∧ ∀ e ∈ events, author e = v ↔ Of v s.members k
  reactions : t.reactions.reactions = s.reactions.reactions.filter (·.sender != v)

theorem Apart.left {xs ys : List JoinedMembership} (h : Apart v (xs ++ ys)) : Apart v xs :=
  fun a ha b hb => h a (List.mem_append_left ys ha) b (List.mem_append_left ys hb)

theorem Apart.right {xs ys : List JoinedMembership} (h : Apart v (xs ++ ys)) : Apart v ys :=
  fun a ha b hb => h a (List.mem_append_right xs ha) b (List.mem_append_right xs hb)

theorem Of.carried {members : List JoinedMembership} {k : String} (h : Of v members k) :
    Carried members k := by
  obtain ⟨a, ha, -, same⟩ := h
  exact ⟨a, ha, same⟩

theorem Apart.sender_eq_iff {members : List JoinedMembership} (h : Apart v members)
    {a : JoinedMembership} (ha : a ∈ members) : a.sender = v ↔ Of v members a.memberId := by
  constructor
  · exact fun own => ⟨a, ha, own, rfl⟩
  · rintro ⟨b, hb, own, same⟩
    by_contra other
    exact h b hb a ha own other same

theorem Apart.of_iff {old next : List JoinedMembership} (h : Apart v (old ++ next)) {k : String}
    (before : Carried old k) (after : Carried next k) : Of v next k ↔ Of v old k := by
  obtain ⟨a, ha, rfl⟩ := before
  obtain ⟨b, hb, same⟩ := after
  have ha' : a ∈ old ++ next := List.mem_append_left _ ha
  have hb' : b ∈ old ++ next := List.mem_append_right _ hb
  have sides : b.sender = v ↔ a.sender = v := by
    rw [h.sender_eq_iff ha', h.sender_eq_iff hb', same]
  rw [← h.left.sender_eq_iff ha, ← same, ← h.right.sender_eq_iff hb, sides]

theorem Alike.isEventOf_author {s t : CallState} (h : Alike author v s t)
    {a : JoinedMembership} (ha : a ∈ s.members) {target : String}
    (of : s.reactions.isEventOf target a) : author target = v ↔ a.sender = v := by
  rw [isEventOf, Bool.or_eq_true, beq_iff_eq] at of
  rcases of with current | old
  · rw [h.authored a ha target current]
  · rw [h.apart.sender_eq_iff ha]
    cases there : s.reactions.knownMembershipEvents.lookup a.memberId with
    | none => simp [there] at old
    | some events =>
        rw [there] at old
        exact (h.knownOwner a.memberId events there).2 target (by simpa using old)

theorem Alike.isEventOf_eq {s t : CallState} (h : Alike author v s t) {a : JoinedMembership}
    (ha : a ∈ s.members) (other : a.sender ≠ v) (target : String) :
    t.reactions.isEventOf target a = s.reactions.isEventOf target a := by
  rw [isEventOf, isEventOf, h.known a.memberId fun of => other ((h.apart.sender_eq_iff ha).mpr of)]

/-- An event of another user relates to the same membership in both runs. -/
theorem Alike.resolveTarget_eq {s t : CallState} (h : Alike author v s t)
    {event : RawTimelineEvent} (other : event.sender ≠ v) (target : String) :
    t.reactions.resolveTarget target event t.members =
      s.reactions.resolveTarget target event s.members := by
  have found : t.members.find? (t.reactions.isEventOf target) =
      s.members.find? fun a => a.sender != v && s.reactions.isEventOf target a := by
    rw [h.members, List.find?_filter]
    refine find?_congr fun a ha => ?_
    by_cases own : a.sender = v
    · simp [own]
    · simp [own, h.isEventOf_eq ha own target]
  rw [resolveTarget, resolveTarget, found]
  by_cases targets : author target = v
  · -- It names an event of `v`: a membership of `v` or none, and neither is the sender's.
    have none_ : (s.members.find? fun a => a.sender != v && s.reactions.isEventOf target a) =
        none := by
      rw [List.find?_eq_none]
      intro a ha both
      obtain ⟨not_v, of⟩ := Bool.and_eq_true_iff.mp both
      exact (by simpa using not_v : a.sender ≠ v) ((h.isEventOf_author ha of).mp targets)
    rw [none_]
    cases there : s.members.find? (s.reactions.isEventOf target) with
    | none => rfl
    | some a =>
        have own := (h.isEventOf_author (List.mem_of_find?_eq_some there)
          (List.find?_some there)).mp targets
        simp [own, Ne.symm other]
  · have same : (s.members.find? fun a => a.sender != v && s.reactions.isEventOf target a) =
        s.members.find? (s.reactions.isEventOf target) := by
      refine find?_congr fun a ha => ?_
      cases of : s.reactions.isEventOf target a with
      | false => simp
      | true =>
          have not_v : a.sender ≠ v := fun own =>
            targets ((h.isEventOf_author ha of).mpr own)
          simp [not_v]
    rw [same]

/-- What an event resolves to is a membership of its sender. -/
theorem resolveTarget_mem {s : ReactionsState} {target : String} {event : RawTimelineEvent}
    {members : List JoinedMembership} {a : JoinedMembership}
    (h : s.resolveTarget target event members = some a) :
    a ∈ members ∧ a.sender = event.sender := by
  unfold resolveTarget at h
  cases there : members.find? (s.isEventOf target) with
  | none => simp [there] at h
  | some b =>
      rw [there] at h
      dsimp only at h
      split at h
      · next same =>
          cases h
          exact ⟨List.mem_of_find?_eq_some there, same⟩
      · cases h

/-- The hand of a membership after one of its annotations. -/
def handAfter (known : Option RaisedHand) (event : RawTimelineEvent) (a : JoinedMembership)
    (backfill : Bool) : RaisedHand :=
  let hand : RaisedHand :=
    { memberId := a.memberId
      sender := a.sender
      reactionEventId := event.eventId
      raisedAtMs := event.originServerTs
      fromBackfill := backfill }
  match known with
  | none => hand
  | some existing =>
      if existing.reactionEventId = event.eventId then existing else mergeHands existing hand

/-- A hand is written under the membership's id, and nothing else of the tables is. -/
theorem ingestHand_writes (s : ReactionsState) (event : RawTimelineEvent) (a : JoinedMembership)
    (backfill : Bool) :
    (s.ingestHand event a backfill).raisedHands.lookup a.memberId =
        some (handAfter (s.raisedHands.lookup a.memberId) event a backfill) ∧
      (∀ k, k ≠ a.memberId → (s.ingestHand event a backfill).raisedHands.lookup k =
        s.raisedHands.lookup k) ∧
      (s.ingestHand event a backfill).lastReactionAt = s.lastReactionAt ∧
      (s.ingestHand event a backfill).reactions = s.reactions := by
  unfold ingestHand handAfter
  cases there : s.raisedHands.lookup a.memberId with
  | none =>
      exact ⟨AList.lookup_insert _, fun k apart => AList.lookup_insert_ne apart, rfl, rfl⟩
  | some existing =>
      dsimp only
      by_cases again : existing.reactionEventId = event.eventId
      · rw [if_pos again, if_pos again]
        exact ⟨there, fun k _ => rfl, rfl, rfl⟩
      · rw [if_neg again, if_neg again]
        exact ⟨AList.lookup_insert _, fun k apart => AList.lookup_insert_ne apart, rfl, rfl⟩

/-- The hand is one of the membership's annotations, or was there. -/
theorem handAfter_owner {known : Option RaisedHand} {event : RawTimelineEvent}
    {a : JoinedMembership} {backfill : Bool} {P : RaisedHand → Prop}
    (there : ∀ hand ∈ known, P hand)
    (kept : ∀ hand at_ backfill, P hand →
      P { hand with raisedAtMs := at_, fromBackfill := backfill })
    (sent : ∀ at_ backfill, P ⟨a.memberId, a.sender, event.eventId, at_, backfill⟩) :
    P (handAfter known event a backfill) := by
  unfold handAfter
  cases known with
  | none => exact sent _ _
  | some existing =>
      dsimp only
      split
      · exact there existing rfl
      · unfold mergeHands
        dsimp only
        split
        · exact sent _ _
        · exact kept existing _ _ (there existing rfl)

/-- A hand of an annotation is its membership's. -/
theorem Alike.handOwner_ingestHand {s t : CallState} (h : Alike author v s t)
    {a : JoinedMembership} (ha : a ∈ s.members) {event : RawTimelineEvent}
    (sent : author event.eventId = a.sender) {backfill : Bool} {k : String} {hand : RaisedHand}
    (there : (s.reactions.ingestHand event a backfill).raisedHands.lookup k = some hand) :
    Carried s.members k ∧ author hand.reactionEventId = hand.sender ∧
      (hand.sender = v ↔ Of v s.members k) := by
  obtain ⟨written, others, -, -⟩ := ingestHand_writes s.reactions event a backfill
  by_cases same : k = a.memberId
  · subst same
    rw [written] at there
    cases there
    exact handAfter_owner (P := fun hand => Carried s.members a.memberId ∧
        author hand.reactionEventId = hand.sender ∧
          (hand.sender = v ↔ Of v s.members a.memberId))
      (fun hand there => h.handOwner _ hand there) (fun _ _ _ is => is)
      (fun _ _ => ⟨⟨a, ha, rfl⟩, sent, h.apart.sender_eq_iff ha⟩)
  · rw [others k same] at there
    exact h.handOwner k hand there

/-- An annotation of `v` writes under an id of `v`. -/
theorem Alike.own_hand {s t : CallState} (h : Alike author v s t) {a : JoinedMembership}
    (ha : a ∈ s.members) (own : a.sender = v) {event : RawTimelineEvent}
    (sent : author event.eventId = a.sender) (backfill : Bool) :
    Alike author v { s with reactions := s.reactions.ingestHand event a backfill } t := by
  have apart : ∀ k, ¬Of v s.members k → k ≠ a.memberId :=
    fun k off same => off ⟨a, ha, own, same.symm⟩
  obtain ⟨-, others, reactedAt, given⟩ := ingestHand_writes s.reactions event a backfill
  obtain ⟨config, known⟩ := ingestHand_frame s.reactions event a backfill
  exact
    { h with
      config := h.config.trans config.symm
      hands := fun k off => (h.hands k off).trans (others k (apart k off)).symm
      reactedAt := fun k off => (h.reactedAt k off).trans (by rw [reactedAt])
      known := fun k off => (h.known k off).trans (by rw [known])
      handOwner := fun k hand there => h.handOwner_ingestHand ha sent there
      knownOwner := fun k events there => h.knownOwner k events (by rwa [known] at there)
      reactions := h.reactions.trans (by rw [given]) }

/-- An annotation of another user writes the same in both runs. -/
theorem Alike.other_hand {s t : CallState} (h : Alike author v s t) {a : JoinedMembership}
    (ha : a ∈ s.members) (other : a.sender ≠ v) {event : RawTimelineEvent}
    (sent : author event.eventId = a.sender) (backfill : Bool) :
    Alike author v { s with reactions := s.reactions.ingestHand event a backfill }
      { t with reactions := t.reactions.ingestHand event a backfill } := by
  have off : ¬Of v s.members a.memberId := fun of => other ((h.apart.sender_eq_iff ha).mpr of)
  obtain ⟨written, others, reactedAt, given⟩ := ingestHand_writes s.reactions event a backfill
  obtain ⟨config, known⟩ := ingestHand_frame s.reactions event a backfill
  obtain ⟨written', others', reactedAt', given'⟩ := ingestHand_writes t.reactions event a backfill
  obtain ⟨config', known'⟩ := ingestHand_frame t.reactions event a backfill
  exact
    { h with
      config := by rw [config, config', h.config]
      hands := fun k offK => by
        by_cases same : k = a.memberId
        · subst same
          exact (written'.trans (by rw [h.hands _ off])).trans written.symm
        · exact ((others' k same).trans (h.hands k offK)).trans (others k same).symm
      noHands := fun k of => (others' k fun same => off (same ▸ of)).trans (h.noHands k of)
      reactedAt := fun k offK => by rw [reactedAt, reactedAt', h.reactedAt k offK]
      known := fun k offK => by rw [known, known', h.known k offK]
      handOwner := fun k hand there => h.handOwner_ingestHand ha sent there
      knownOwner := fun k events there => h.knownOwner k events (by rwa [known] at there)
      reactions := by rw [given, given', h.reactions] }

/-- What a reaction writes: the time of the member's last, and what is given out. -/
def reactionOf (a : JoinedMembership) (emoji name : String) : ReceivedReaction where
  memberId := a.memberId
  sender := a.sender
  emoji := ((reactionKind name).map (·.emoji)).getD emoji
  name := name
  sound := soundFor name

/-- A reaction is given out, or is too old or too soon. -/
def Taken (config : ReactionsConfig) (last : Option ℕ) (event : RawTimelineEvent) (now : ℕ) :
    Prop :=
  ¬config.maxAgeMs < now - event.originServerTs ∧
    ¬last.any fun last => decide (now - last < config.activeWindowMs)

theorem ingestReaction_eq (s : ReactionsState) (event : RawTimelineEvent) (a : JoinedMembership)
    (emoji name : String) (now : ℕ) :
    (Taken s.config (s.lastReactionAt.lookup a.memberId) event now ∧
      s.ingestReaction event a emoji name now =
        { s with
          lastReactionAt := s.lastReactionAt.insert a.memberId now
          reactions := s.reactions ++ [reactionOf a emoji name] }) ∨
    ¬Taken s.config (s.lastReactionAt.lookup a.memberId) event now ∧
      s.ingestReaction event a emoji name now = s := by
  unfold ingestReaction Taken
  by_cases old : s.config.maxAgeMs < now - event.originServerTs
  · exact .inr ⟨fun taken => taken.1 old, by rw [if_pos old]⟩
  · rw [if_neg old]
    by_cases soon : (s.lastReactionAt.lookup a.memberId).any fun last =>
        decide (now - last < s.config.activeWindowMs)
    · exact .inr ⟨fun taken => taken.2 soon, by rw [if_pos soon]⟩
    · exact .inl ⟨⟨old, soon⟩, by rw [if_neg soon]; rfl⟩

theorem Alike.own_reaction {s t : CallState} (h : Alike author v s t) {a : JoinedMembership}
    (ha : a ∈ s.members) (own : a.sender = v) (event : RawTimelineEvent) (emoji name : String)
    (now : ℕ) :
    Alike author v { s with reactions := s.reactions.ingestReaction event a emoji name now }
      t := by
  rcases ingestReaction_eq s.reactions event a emoji name now with ⟨-, same⟩ | ⟨-, same⟩
  · rw [same]
    exact
      { h with
        reactedAt := fun k off => (h.reactedAt k off).trans
          (AList.lookup_insert_ne fun same => off ⟨a, ha, own, same.symm⟩).symm
        reactions := by
          rw [List.filter_append, ← h.reactions]
          simp [reactionOf, own] }
  · rw [same]
    exact h

theorem Alike.other_reaction {s t : CallState} (h : Alike author v s t) {a : JoinedMembership}
    (ha : a ∈ s.members) (other : a.sender ≠ v) (event : RawTimelineEvent)
    (emoji name : String) (now : ℕ) :
    Alike author v { s with reactions := s.reactions.ingestReaction event a emoji name now }
      { t with reactions := t.reactions.ingestReaction event a emoji name now } := by
  have off : ¬Of v s.members a.memberId := fun of => other ((h.apart.sender_eq_iff ha).mpr of)
  have alike : Taken t.reactions.config (t.reactions.lastReactionAt.lookup a.memberId) event now ↔
      Taken s.reactions.config (s.reactions.lastReactionAt.lookup a.memberId) event now := by
    rw [h.config, h.reactedAt _ off]
  rcases ingestReaction_eq s.reactions event a emoji name now with ⟨taken, same⟩ | ⟨not_, same⟩
  · rcases ingestReaction_eq t.reactions event a emoji name now with ⟨-, same'⟩ | ⟨not', -⟩
    · rw [same, same']
      exact
        { h with
          reactedAt := fun k offK => by
            by_cases own : k = a.memberId
            · subst own
              rw [AList.lookup_insert, AList.lookup_insert]
            · rw [AList.lookup_insert_ne own, AList.lookup_insert_ne own, h.reactedAt k offK]
          reactions := by
            rw [List.filter_append, ← h.reactions]
            simp [reactionOf, other] }
    · exact absurd (alike.mpr taken) not'
  · rcases ingestReaction_eq t.reactions event a emoji name now with ⟨taken', -⟩ | ⟨-, same'⟩
    · exact absurd (alike.mp taken') not_
    · rw [same, same']
      exact h

/-- One event of `v`, which the other run has not. -/
theorem Alike.own_event {s t : CallState} (h : Alike author v s t) {event : RawTimelineEvent}
    (own : event.sender = v) (sent : author event.eventId = event.sender) (backfill : Bool)
    (now : ℕ) : Alike author v (s.ingest graphemes backfill now event) t := by
  unfold CallState.ingest ReactionsState.ingest
  split
  · exact h
  · cases parseTimelineEvent graphemes event with
    | irrelevant => exact h
    | reaction target emoji name =>
        cases backfill with
        | true => exact h
        | false =>
            cases found : s.reactions.resolveTarget target event s.members with
            | none => simpa [found] using h
            | some a =>
                obtain ⟨ha, same⟩ := resolveTarget_mem found
                simpa [found] using h.own_reaction ha (same.trans own) event emoji name now
    | raisedHand target =>
        cases found : s.reactions.resolveTarget target event s.members with
        | none => simpa [found] using h
        | some a =>
            obtain ⟨ha, same⟩ := resolveTarget_mem found
            simpa [found] using h.own_hand ha (same.trans own) (sent.trans same.symm) backfill

/-- One event of another user, which both runs have. -/
theorem Alike.other_event {s t : CallState} (h : Alike author v s t) {event : RawTimelineEvent}
    (other : event.sender ≠ v) (sent : author event.eventId = event.sender) (backfill : Bool)
    (now : ℕ) :
    Alike author v (s.ingest graphemes backfill now event)
      (t.ingest graphemes backfill now event) := by
  unfold CallState.ingest ReactionsState.ingest
  rw [h.config]
  split
  · exact h
  · cases parseTimelineEvent graphemes event with
    | irrelevant => exact h
    | reaction target emoji name =>
        cases backfill with
        | true => exact h
        | false =>
            dsimp only
            rw [h.resolveTarget_eq other target]
            cases found : s.reactions.resolveTarget target event s.members with
            | none => exact h
            | some a =>
                obtain ⟨ha, same⟩ := resolveTarget_mem found
                exact h.other_reaction ha (same ▸ other) event emoji name now
    | raisedHand target =>
        dsimp only
        rw [h.resolveTarget_eq other target]
        cases found : s.reactions.resolveTarget target event s.members with
        | none => exact h
        | some a =>
            obtain ⟨ha, same⟩ := resolveTarget_mem found
            exact h.other_hand ha (same ▸ other) (sent.trans same.symm) backfill

theorem Alike.events {events : List RawTimelineEvent}
    (sent : ∀ e ∈ events, author e.eventId = e.sender) (backfill : Bool) (now : ℕ)
    {s t : CallState} (h : Alike author v s t) :
    Alike author v (events.foldl (CallState.ingest graphemes backfill now) s)
      ((events.filter (·.sender != v)).foldl (CallState.ingest graphemes backfill now) t) := by
  induction events generalizing s t with
  | nil => exact h
  | cons event events ih =>
      have later := fun e he => sent e (List.mem_cons_of_mem event he)
      by_cases own : event.sender = v
      · rw [List.filter_cons_of_neg (by simp [own])]
        exact ih later (h.own_event own (sent event List.mem_cons_self) backfill now)
      · rw [List.filter_cons_of_pos (by simp [own])]
        exact ih later (h.other_event own (sent event List.mem_cons_self) backfill now)

/-- The redaction of an event of `v`, which the other run has not, leaves the others' hands. -/
theorem Alike.own_redaction {s t : CallState} (h : Alike author v s t) {eventId : String}
    (own : author eventId = v) :
    Alike author v { s with reactions := s.reactions.onEventRedacted eventId } t := by
  obtain ⟨hands, config, reactedAt, known, given⟩ := onEventRedacted_hands s.reactions eventId
  exact
    { h with
      config := h.config.trans config.symm
      hands := fun k off => by
        rw [hands, h.hands k off]
        cases there : s.reactions.raisedHands.lookup k with
        | none => rfl
        | some hand =>
            obtain ⟨-, sent, side⟩ := h.handOwner k hand there
            have apart : hand.reactionEventId ≠ eventId := fun same =>
              off (side.mp (sent.symm.trans ((congrArg author same).trans own)))
            simp [Option.filter, apart]
      reactedAt := fun k off => (h.reactedAt k off).trans (by rw [reactedAt])
      known := fun k off => (h.known k off).trans (by rw [known])
      handOwner := fun k hand there => by
        dsimp only at there
        rw [hands, Option.filter_eq_some_iff] at there
        exact h.handOwner k hand there.1
      knownOwner := fun k events there => h.knownOwner k events (by rwa [known] at there)
      reactions := h.reactions.trans (by rw [given]) }

theorem Alike.other_redaction {s t : CallState} (h : Alike author v s t) (eventId : String) :
    Alike author v { s with reactions := s.reactions.onEventRedacted eventId }
      { t with reactions := t.reactions.onEventRedacted eventId } := by
  obtain ⟨hands, config, reactedAt, known, given⟩ := onEventRedacted_hands s.reactions eventId
  obtain ⟨hands', config', reactedAt', known', given'⟩ :=
    onEventRedacted_hands t.reactions eventId
  exact
    { h with
      config := by rw [config, config', h.config]
      hands := fun k off => by rw [hands, hands', h.hands k off]
      noHands := fun k of => by
        rw [hands', h.noHands k of]
        rfl
      reactedAt := fun k off => by rw [reactedAt, reactedAt', h.reactedAt k off]
      known := fun k off => by rw [known, known', h.known k off]
      handOwner := fun k hand there => by
        dsimp only at there
        rw [hands, Option.filter_eq_some_iff] at there
        exact h.handOwner k hand there.1
      knownOwner := fun k events there => h.knownOwner k events (by rwa [known] at there)
      reactions := by rw [given, given', h.reactions] }

/-- The known events of one id after a member. -/
def knownAfter (known : Option (List String)) (a : JoinedMembership) : Option (List String) :=
  match a.membershipEventId with
  | none => known
  | some eventId => some (rememberEvent (known.getD []) eventId)

/-- Under an id stand the events of the members with that id. -/
theorem lookup_remembered (members : List JoinedMembership) (known : Table String (List String))
    (k : String) :
    (members.foldl rememberMember known).lookup k =
      (members.filter (·.memberId == k)).foldl knownAfter (known.lookup k) := by
  induction members generalizing known with
  | nil => rfl
  | cons a members ih =>
      rw [List.foldl_cons, ih]
      by_cases same : a.memberId = k
      · subst same
        rw [List.filter_cons_of_pos (by simp), List.foldl_cons]
        congr 1
        unfold rememberMember knownAfter
        cases a.membershipEventId with
        | none => rfl
        | some eventId => exact AList.lookup_insert _
      · rw [List.filter_cons_of_neg (by simpa using same)]
        congr 1
        unfold rememberMember
        cases a.membershipEventId with
        | none => rfl
        | some eventId => exact AList.lookup_insert_ne (Ne.symm same)

theorem mem_rememberEvent {known : List String} {eventId e : String}
    (h : e ∈ rememberEvent known eventId) : e ∈ known ∨ e = eventId := by
  have longer : ∀ {xs : List String}, e ∈ xs → xs = known.filter (· != eventId) ++ [eventId] →
      e ∈ known ∨ e = eventId := by
    rintro xs there rfl
    rcases List.mem_append.mp there with there | there
    · exact .inl (List.mem_filter.mp there).1
    · exact .inr (List.mem_singleton.mp there)
  unfold rememberEvent at h
  split at h
  · exact .inl h
  · dsimp only at h
    split at h
    · exact longer (List.mem_of_mem_drop h) rfl
    · exact longer h rfl

/-- A known event of an id is an old one, or a membership event of a member with that id. -/
theorem mem_knownAfter {members : List JoinedMembership} {known : Option (List String)}
    {events : List String} (h : members.foldl knownAfter known = some events) {e : String}
    (he : e ∈ events) :
    (∃ old ∈ known, e ∈ old) ∨ ∃ a ∈ members, a.membershipEventId = some e := by
  induction members generalizing known with
  | nil => exact .inl ⟨events, h, he⟩
  | cons a members ih =>
      rcases ih h with ⟨old, there, he⟩ | ⟨b, hb, same⟩
      · unfold knownAfter at there
        cases current : a.membershipEventId with
        | none =>
            rw [current] at there
            exact .inl ⟨old, there, he⟩
        | some eventId =>
            rw [current] at there
            cases there
            rcases mem_rememberEvent he with he | rfl
            · cases known with
              | none => cases he
              | some old => exact .inl ⟨old, rfl, he⟩
            · exact .inr ⟨a, List.mem_cons_self, current⟩
      · exact .inr ⟨b, List.mem_cons_of_mem _ hb, same⟩

theorem present_iff {members : List JoinedMembership} {k : String} :
    present members k = true ↔ Carried members k := by
  simp [present, Carried, List.any_eq_true]

theorem present_others {members : List JoinedMembership} {k : String} (off : ¬Of v members k) :
    present (members.filter (·.sender != v)) k = present members k := by
  rw [Bool.eq_iff_iff, present_iff, present_iff]
  constructor
  · rintro ⟨a, ha, same⟩
    exact ⟨a, (List.mem_filter.mp ha).1, same⟩
  · rintro ⟨a, ha, same⟩
    have other : a.sender ≠ v := fun own => off ⟨a, ha, own, same⟩
    exact ⟨a, List.mem_filter.mpr ⟨ha, by simpa using other⟩, same⟩

theorem not_present_of {members : List JoinedMembership} (apart : Apart v members) {k : String}
    (of : Of v members k) : present (members.filter (·.sender != v)) k = false := by
  rw [Bool.eq_false_iff, Ne, present_iff]
  rintro ⟨a, ha, rfl⟩
  obtain ⟨there, not_v⟩ := List.mem_filter.mp ha
  exact (by simpa using not_v : a.sender ≠ v) ((apart.sender_eq_iff there).mpr of)

theorem Alike.roster {s t : CallState} (h : Alike author v s t) {next : List JoinedMembership}
    (apart : Apart v (s.members ++ next))
    (authored : ∀ a ∈ next, ∀ e ∈ a.membershipEventId, author e = a.sender) :
    Alike author v (s.syncRoster next) (t.syncRoster (next.filter (·.sender != v))) := by
  obtain ⟨hands, reactedAt, known, config, given⟩ := syncRoster_tables s.reactions next
  obtain ⟨hands', reactedAt', known', config', given'⟩ :=
    syncRoster_tables t.reactions (next.filter (·.sender != v))
  -- What another's id keeps was under that other's id before.
  have before : ∀ k, ¬Of v next k → present next k → ¬Of v s.members k := fun k off here was =>
    off ((apart.of_iff was.carried (present_iff.mp here)).mpr was)
  have knownAt : ∀ k, (s.syncRoster next).reactions.knownMembershipEvents.lookup k =
      (next.filter (·.memberId == k)).foldl knownAfter
        (if present next k then s.reactions.knownMembershipEvents.lookup k else none) := by
    intro k
    refine (congrArg (·.lookup k) known).trans ((lookup_remembered next _ k).trans ?_)
    rw [lookup_retain]
    cases present next k <;> cases s.reactions.knownMembershipEvents.lookup k <;>
      simp [Option.filter]
  exact
    { members := rfl
      config := by
        dsimp only [CallState.syncRoster]
        rw [config, config', h.config]
      apart := apart.right
      authored := authored
      hands := fun k off => by
        refine (hands' k).trans (Eq.trans ?_ (hands k).symm)
        rw [@present_others v next k off]
        split
        · next here => exact h.hands k (before k off here)
        · rfl
      noHands := fun k of => (hands' k).trans (by rw [@not_present_of v next apart.right k of]; rfl)
      reactedAt := fun k off => by
        refine (reactedAt' k).trans (Eq.trans ?_ (reactedAt k).symm)
        rw [@present_others v next k off]
        split
        · next here => exact h.reactedAt k (before k off here)
        · rfl
      known := fun k off => by
        refine Eq.trans ?_ (knownAt k).symm
        refine (congrArg (·.lookup k) known').trans ((lookup_remembered _ _ k).trans ?_)
        have same : (next.filter (·.sender != v)).filter (·.memberId == k) =
            next.filter (·.memberId == k) := by
          rw [List.filter_filter]
          refine List.filter_congr fun a ha => ?_
          by_cases mine : a.memberId = k
          · have other : a.sender ≠ v := fun own => off ⟨a, ha, own, mine⟩
            simp [mine, other]
          · simp [mine]
        rw [same, lookup_retain, @present_others v next k off]
        cases here : present next k with
        | false => cases t.reactions.knownMembershipEvents.lookup k <;> simp [Option.filter]
        | true =>
            rw [h.known k (before k off here)]
            cases s.reactions.knownMembershipEvents.lookup k <;> simp [Option.filter]
      handOwner := fun k hand there => by
        have kept := (hands k).symm.trans there
        split at kept
        · next here =>
            obtain ⟨carried, sent, side⟩ := h.handOwner k hand kept
            exact ⟨present_iff.mp here, sent,
              side.trans (apart.of_iff carried (present_iff.mp here)).symm⟩
        · cases kept
      knownOwner := fun k events there => by
        have kept := (knownAt k).symm.trans there
        have here : Carried next k := by
          by_contra absent
          have gone : present next k = false :=
            Bool.eq_false_iff.mpr fun here => absent (present_iff.mp here)
          have no_one : next.filter (·.memberId == k) = [] := by
            rw [List.filter_eq_nil_iff]
            exact fun a ha same => absent ⟨a, ha, by simpa using same⟩
          rw [gone, no_one] at kept
          cases kept
        refine ⟨here, fun e he => ?_⟩
        rcases mem_knownAfter kept he with ⟨old, was, he⟩ | ⟨a, ha, same⟩
        · rw [if_pos (present_iff.mpr here)] at was
          obtain ⟨carried, owner⟩ := h.knownOwner k old was
          exact (owner e he).trans (apart.of_iff carried here).symm
        · obtain ⟨there, mine⟩ := List.mem_filter.mp ha
          have id_eq : a.memberId = k := by simpa using mine
          rw [authored a there e same, ← id_eq]
          exact apart.right.sender_eq_iff there
      reactions := by
        dsimp only [CallState.syncRoster]
        rw [given, given', h.reactions] }

theorem alike_fresh (author : String → String) (v : String) (config : ReactionsConfig) :
    Alike author v (fresh config) (fresh config) where
  members := rfl
  config := rfl
  apart := fun _ ha => nomatch ha
  authored := fun _ ha => nomatch ha
  hands := fun _ _ => rfl
  noHands := fun _ _ => rfl
  reactedAt := fun _ _ => rfl
  known := fun _ _ => rfl
  handOwner := fun _ _ there => nomatch there
  knownOwner := fun _ _ there => nomatch there
  reactions := rfl

/-- One move in both runs, or only in the one with `v`. -/
theorem Alike.move {move : RoomMove} {moves : List RoomMove} (told : Told author move)
    {s t : CallState} (h : Alike author v s t) (apart : ApartFrom v s.members (move :: moves)) :
    Alike author v (s.apply graphemes move)
        (((withoutUser author v move).map (t.apply graphemes)).getD t) ∧
      ApartFrom v (s.apply graphemes move).members moves := by
  cases move with
  | roster next => exact ⟨h.roster apart.1 told, apart.2⟩
  | timeline events now =>
      refine ⟨h.events told false now, ?_⟩
      have same := (@sameRoom_foldl graphemes false now events s).members
      exact (congrArg (ApartFrom v · moves) same).mpr apart
  | relations target events now =>
      have asked : Alike author v
          { s with reactions :=
            { s.reactions with relationsFetched := s.reactions.relationsFetched.insert target } }
          { t with reactions :=
            { t.reactions with relationsFetched := t.reactions.relationsFetched.insert target } } :=
        { h with }
      have both := @Alike.events graphemes author v events told true now _ _ asked
      rw [← apply_relations, ← apply_relations] at both
      refine ⟨both, apart⟩
  | redacted eventId =>
      refine ⟨?_, apart⟩
      by_cases mine : author eventId = v
      · rw [withoutUser, if_pos mine]
        exact h.own_redaction mine
      · rw [withoutUser, if_neg mine]
        exact h.other_redaction eventId
  | own memberId userId now move => exact told.elim

/-- Both runs to their ends. -/
theorem Alike.run {moves : List RoomMove} (told : ∀ move ∈ moves, Told author move)
    {s t : CallState} (h : Alike author v s t) (apart : ApartFrom v s.members moves) :
    Alike author v (s.afterMoves graphemes moves)
      (t.afterMoves graphemes (moves.filterMap (withoutUser author v))) := by
  induction moves generalizing s t with
  | nil => exact h
  | cons move moves ih =>
      obtain ⟨next, apart⟩ :=
        @Alike.move graphemes author v move moves (told move List.mem_cons_self) s t h apart
      have later := ih (fun m hm => told m (List.mem_cons_of_mem move hm)) next apart
      cases kept : withoutUser author v move with
      | none =>
          rw [kept] at later
          rw [List.filterMap_cons_none kept]
          exact later
      | some move' =>
          rw [kept] at later
          rw [List.filterMap_cons_some kept]
          exact later

/-- As long as the memberships of `v` keep to ids of their own, the hands and the reactions of
every other user are those of the run without the memberships, the events and the redactions
of `v`. -/
theorem others_unmoved (graphemes : String → List String) (author : String → String)
    (v : String) (config : ReactionsConfig) (moves : List RoomMove)
    (told : ∀ move ∈ moves, Told author move) (apart : ApartFrom v [] moves) (u : String)
    (other : u ≠ v) :
    let with_ := (fresh config).afterMoves graphemes moves
    let without := (fresh config).afterMoves graphemes (moves.filterMap (withoutUser author v))
    (∀ k hand, hand.sender = u → (with_.reactions.raisedHands.lookup k = some hand ↔
      without.reactions.raisedHands.lookup k = some hand)) ∧
      with_.reactions.reactions.filter (·.sender == u) =
        without.reactions.reactions.filter (·.sender == u) := by
  intro with_ without
  have h : Alike author v with_ without := (alike_fresh author v config).run told apart
  constructor
  · intro k hand sent
    by_cases of : Of v with_.members k
    · constructor
      · intro there
        exact absurd (sent.symm.trans ((h.handOwner k hand there).2.2.mpr of)) other
      · intro there
        rw [h.noHands k of] at there
        cases there
    · rw [h.hands k of]
  · rw [h.reactions, List.filter_filter]
    refine List.filter_congr fun reaction _ => ?_
    by_cases same : reaction.sender = u
    · simp [same, other]
    · simp [same]

/-- Each event is that of the user its id names. -/
def authors (eventId : String) : String :=
  if eventId ∈ ["$m", "$hand"] then "@u:x" else "@v:x"

/-- The copy stands before the membership whose id it states. -/
def copied : List RoomMove :=
  [.roster [peer "p" "$v" "@v:x", peer "p" "$m" "@u:x"],
    .timeline [HandOrder.annotation "$hand" "@u:x" "$m" 1] 2]

/-- The hand of `u` is not taken, which without `v` it is. -/
theorem copied_moves_hand :
    (∀ move ∈ copied, Told authors move) ∧
    ¬(∀ k hand, hand.sender = "@u:x" →
      (((fresh .default).afterMoves (fun _ => []) copied).reactions.raisedHands.lookup k =
          some hand ↔
        ((fresh .default).afterMoves (fun _ => [])
          (copied.filterMap (withoutUser authors "@v:x"))).reactions.raisedHands.lookup k =
          some hand)) := by
  constructor
  · simp [copied, Told, authors, peer, HandOrder.annotation]
  · intro same
    have gone := (same "p" ⟨"p", "@u:x", "$hand", 1, false⟩ rfl).mpr (by decide)
    exact absurd gone (by decide)

/-- The same, where `v` states an id of its own and raises its hand too. -/
def apartIds : List RoomMove :=
  [.roster [peer "q" "$v" "@v:x", peer "p" "$m" "@u:x"],
    .timeline [HandOrder.annotation "$hand" "@u:x" "$m" 1,
      HandOrder.annotation "$other" "@v:x" "$v" 1] 2,
    .redacted "$other"]

theorem others_unmoved_apartIds :
    (∀ k hand, hand.sender = "@u:x" →
      (((fresh .default).afterMoves (fun _ => []) apartIds).reactions.raisedHands.lookup k =
          some hand ↔
        ((fresh .default).afterMoves (fun _ => [])
          (apartIds.filterMap (withoutUser authors "@v:x"))).reactions.raisedHands.lookup k =
          some hand)) ∧
      ((fresh .default).afterMoves (fun _ => []) apartIds).reactions.reactions.filter
          (·.sender == "@u:x") =
        ((fresh .default).afterMoves (fun _ => [])
          (apartIds.filterMap (withoutUser authors "@v:x"))).reactions.reactions.filter
            (·.sender == "@u:x") :=
  others_unmoved (fun _ => []) authors "@v:x" .default apartIds
    (by simp [apartIds, Told, authors, peer, HandOrder.annotation])
    (by simp [apartIds, ApartFrom, Apart, peer]) "@u:x" (by decide)

end MatrixRtc.UserIsolation

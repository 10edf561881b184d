import MatrixRtc.RaisedHands

/-!
# The call state of one slot

A slot keeps the roster as last published beside its reactions. Every event of the room is
offered to it, and what its own participation does is told it with our `member.id` and user.
Declines are the call's lifecycle and not kept here.
-/
namespace MatrixRtc.CallRooms
open MemberEvents HostAnswers Tables DirectCalls RaisedHands RaisedHands.ReactionsState

structure CallState where
  reactions : ReactionsState
  members : List JoinedMembership

/-- What our own participation does with the reactions of the slot. -/
inductive OwnMove where
  | joined (config : ReactionsConfig)
  | reacted
  | requested (up : Bool)
  | raised (reactionEventId on : String)
  | lowered
  | refused (error : CommandError)
  | settled
  | left
deriving DecidableEq

inductive RoomMove where
  | roster (members : List JoinedMembership)
  | timeline (events : List RawTimelineEvent) (now : ℕ)
  | relations (target : String) (events : List RawTimelineEvent) (now : ℕ)
  | redacted (eventId : String)
  | own (memberId userId : String) (now : ℕ) (move : OwnMove)
deriving DecidableEq

namespace CallState

/-- The slot as the room makes it, with the members it has then. -/
def new (members : List JoinedMembership) : CallState :=
  ⟨ReactionsState.new.syncRoster members, members⟩

def syncRoster (s : CallState) (members : List JoinedMembership) : CallState :=
  ⟨s.reactions.syncRoster members, members⟩

/-- One event, live or of a backfill. -/
def ingest (graphemes : String → List String) (backfill : Bool) (now : ℕ) (s : CallState)
    (event : RawTimelineEvent) : CallState :=
  { s with reactions := s.reactions.ingest graphemes event s.members backfill now }

/-- The reactions after a move of our own. -/
def ownMove (memberId userId : String) (now : ℕ) (reactions : ReactionsState) :
    OwnMove → ReactionsState
  | .joined config => (reactions.configure config).resetOwn
  | .reacted => reactions.recordSent now
  | .requested up => (reactions.requestHand up memberId userId now).1
  | .raised reactionEventId on => reactions.handRaised memberId userId reactionEventId on now
  | .lowered => reactions.handLowered memberId userId now
  | .refused error => reactions.refuseHand memberId userId error now
  | .settled => reactions.settleHand
  | .left => reactions.resetOwn

/-- The slot after one thing the room tells it. -/
def apply (graphemes : String → List String) (s : CallState) : RoomMove → CallState
  | .roster members => s.syncRoster members
  | .timeline events now => events.foldl (ingest graphemes false now) s
  | .relations target events now =>
      { s with
        reactions := s.reactions.onRelationsReceived graphemes target events s.members now }
  | .redacted eventId => { s with reactions := s.reactions.onEventRedacted eventId }
  | .own memberId userId now move =>
      { s with reactions := ownMove memberId userId now s.reactions move }

/-- The slot after all that the room tells it, in order. -/
def afterMoves (graphemes : String → List String) (s : CallState) (moves : List RoomMove) :
    CallState :=
  moves.foldl (apply graphemes) s

end CallState

variable {graphemes : String → List String}

/-- The roster, the configuration and the known membership events are those of before. -/
structure SameRoom (s t : CallState) : Prop where
  members : t.members = s.members
  config : t.reactions.config = s.reactions.config
  known : t.reactions.knownMembershipEvents = s.reactions.knownMembershipEvents

theorem SameRoom.rfl {s : CallState} : SameRoom s s := ⟨.refl _, .refl _, .refl _⟩

theorem SameRoom.trans {s t u : CallState} (h : SameRoom s t) (h' : SameRoom t u) :
    SameRoom s u :=
  ⟨h'.members.trans h.members, h'.config.trans h.config, h'.known.trans h.known⟩

/-- What an event does: nothing, a reaction, or a hand of the member it resolves to. -/
theorem ingest_cases (s : ReactionsState) (event : RawTimelineEvent)
    (members : List JoinedMembership) (backfill : Bool) (now : ℕ) :
    s.ingest graphemes event members backfill now = s ∨
      (∃ member emoji name, s.ingest graphemes event members backfill now =
        s.ingestReaction event member emoji name now) ∨
      ∃ target member, parseTimelineEvent graphemes event = .raisedHand target ∧
        s.resolveTarget target event members = some member ∧
        s.ingest graphemes event members backfill now = s.ingestHand event member backfill := by
  unfold ReactionsState.ingest
  split
  · exact .inl rfl
  · cases parsed : parseTimelineEvent graphemes event with
    | irrelevant => exact .inl rfl
    | reaction target emoji name =>
        cases backfill with
        | true => exact .inl rfl
        | false =>
            cases found : s.resolveTarget target event members with
            | none => exact .inl (by simp [found])
            | some member => exact .inr (.inl ⟨member, emoji, name, by simp [found]⟩)
    | raisedHand target =>
        cases found : s.resolveTarget target event members with
        | none => exact .inl (by simp [found])
        | some member => exact .inr (.inr ⟨target, member, rfl, found, by simp [found]⟩)

theorem ingestReaction_frame (s : ReactionsState) (event : RawTimelineEvent)
    (member : JoinedMembership) (emoji name : String) (now : ℕ) :
    (s.ingestReaction event member emoji name now).config = s.config ∧
      (s.ingestReaction event member emoji name now).knownMembershipEvents =
        s.knownMembershipEvents ∧
      (s.ingestReaction event member emoji name now).raisedHands = s.raisedHands := by
  unfold ingestReaction
  split
  · exact ⟨rfl, rfl, rfl⟩
  · split <;> exact ⟨rfl, rfl, rfl⟩

theorem ingestHand_frame (s : ReactionsState) (event : RawTimelineEvent)
    (member : JoinedMembership) (backfill : Bool) :
    (s.ingestHand event member backfill).config = s.config ∧
      (s.ingestHand event member backfill).knownMembershipEvents = s.knownMembershipEvents := by
  unfold ingestHand
  cases s.raisedHands.lookup member.memberId with
  | none => exact ⟨rfl, rfl⟩
  | some existing =>
      dsimp only
      split <;> exact ⟨rfl, rfl⟩

theorem sameRoom_ingest (s : CallState) (backfill : Bool) (now : ℕ) (event : RawTimelineEvent) :
    SameRoom s (s.ingest graphemes backfill now event) := by
  rcases @ingest_cases graphemes s.reactions event s.members backfill now with
    same | ⟨member, emoji, name, same⟩ | ⟨_, member, -, -, same⟩
  · exact ⟨rfl, congrArg _ same, congrArg _ same⟩
  · obtain ⟨config, known, -⟩ := ingestReaction_frame s.reactions event member emoji name now
    exact ⟨rfl, (congrArg _ same).trans config, (congrArg _ same).trans known⟩
  · obtain ⟨config, known⟩ := ingestHand_frame s.reactions event member backfill
    exact ⟨rfl, (congrArg _ same).trans config, (congrArg _ same).trans known⟩

theorem sameRoom_foldl (backfill : Bool) (now : ℕ) (events : List RawTimelineEvent)
    (s : CallState) : SameRoom s (events.foldl (CallState.ingest graphemes backfill now) s) := by
  induction events generalizing s with
  | nil => exact .rfl
  | cons event events ih => exact (sameRoom_ingest s backfill now event).trans (ih _)

theorem resolveTarget_congr {s t : CallState} (same : SameRoom s t) (target : String)
    (event : RawTimelineEvent) :
    t.reactions.resolveTarget target event t.members =
      s.reactions.resolveTarget target event s.members := by
  have alike : t.reactions.isEventOf target = s.reactions.isEventOf target := by
    funext member
    rw [isEventOf, isEventOf, same.known]
  rw [resolveTarget, resolveTarget, alike, same.members]

theorem apply_relations (s : CallState) (target : String) (events : List RawTimelineEvent)
    (now : ℕ) :
    s.apply graphemes (.relations target events now) =
      events.foldl (CallState.ingest graphemes true now)
        { s with reactions :=
            { s.reactions with relationsFetched := s.reactions.relationsFetched.insert target } } := by
  have along : ∀ (r : ReactionsState),
      (⟨events.foldl (fun r event => r.ingest graphemes event s.members true now) r,
        s.members⟩ : CallState) =
      events.foldl (CallState.ingest graphemes true now) ⟨r, s.members⟩ := by
    induction events with
    | nil => exact fun _ => rfl
    | cons event events ih => exact fun r => ih (r.ingest graphemes event s.members true now)
  exact along _

theorem mem_pendingRelationLookups {s : ReactionsState} {members : List JoinedMembership}
    {ownMemberId : Option String} {lookup : RelationLookup} :
    lookup ∈ s.pendingRelationLookups members ownMemberId ↔
      s.config.enabled = true ∧ lookup.membershipEventId ∉ s.relationsFetched ∧
        ∃ member ∈ members, some member.memberId ≠ ownMemberId ∧
          member.memberId = lookup.memberId ∧
          member.membershipEventId = some lookup.membershipEventId := by
  unfold pendingRelationLookups
  cases s.config.enabled with
  | false => simp
  | true =>
      simp only [Bool.not_true, Bool.false_eq_true, if_false, List.mem_filterMap, List.mem_filter,
        bne_iff_ne, true_and]
      constructor
      · rintro ⟨member, ⟨there, remote⟩, is_⟩
        cases named : member.membershipEventId with
        | none => simp [named] at is_
        | some eventId =>
            simp only [named, List.contains_iff_mem, Option.ite_none_left_eq_some,
              Option.some.injEq] at is_
            obtain ⟨fresh, rfl⟩ := is_
            exact ⟨fresh, member, there, remote, rfl, named⟩
      · rintro ⟨fresh, member, there, remote, same, named⟩
        refine ⟨member, ⟨there, remote⟩, ?_⟩
        simp [named, fresh, same]

theorem pendingRelationLookups_ingest (s : ReactionsState) (event : RawTimelineEvent)
    (members : List JoinedMembership) (backfill : Bool) (now : ℕ) :
    (s.ingest graphemes event members backfill now).pendingRelationLookups =
      s.pendingRelationLookups := by
  rcases @ingest_cases graphemes s event members backfill now with
    same | ⟨member, emoji, name, same⟩ | ⟨_, member, -, -, same⟩
  · rw [same]
  · rw [same, ingestReaction]
    split
    · rfl
    · split <;> rfl
  · rw [same, ingestHand]
    cases s.raisedHands.lookup member.memberId with
    | none => rfl
    | some existing =>
        dsimp only
        split <;> rfl

/-- What was fetched, and nothing else, is not looked up again. -/
theorem mem_pendingRelationLookups_received (s : ReactionsState) (target : String)
    (events : List RawTimelineEvent) (members current : List JoinedMembership) (now : ℕ)
    (ownMemberId : Option String) (lookup : RelationLookup) :
    lookup ∈ (s.onRelationsReceived graphemes target events members now).pendingRelationLookups
        current ownMemberId ↔
      lookup ∈ s.pendingRelationLookups current ownMemberId ∧
        lookup.membershipEventId ≠ target := by
  have along : ∀ r : ReactionsState,
      (events.foldl (fun r event => r.ingest graphemes event members true now)
        r).pendingRelationLookups = r.pendingRelationLookups := by
    induction events with
    | nil => exact fun _ => rfl
    | cons event events ih =>
        exact fun r => (ih _).trans (pendingRelationLookups_ingest r event members true now)
  rw [ReactionsState.onRelationsReceived, along]
  simp only [mem_pendingRelationLookups, List.mem_insert_iff, not_or]
  tauto

/-- A redaction lowers the hands that stand on the event, and changes nothing else of what
others are shown. -/
theorem onEventRedacted_hands (s : ReactionsState) (eventId : String) :
    (∀ k, (s.onEventRedacted eventId).raisedHands.lookup k =
        (s.raisedHands.lookup k).filter (·.reactionEventId != eventId)) ∧
      (s.onEventRedacted eventId).config = s.config ∧
      (s.onEventRedacted eventId).lastReactionAt = s.lastReactionAt ∧
      (s.onEventRedacted eventId).knownMembershipEvents = s.knownMembershipEvents ∧
      (s.onEventRedacted eventId).reactions = s.reactions := by
  unfold onEventRedacted
  dsimp only
  split <;> exact ⟨fun k => lookup_retain _ _ k, rfl, rfl, rfl, rfl⟩

/-- Whether some member has the id. -/
def present (members : List JoinedMembership) (memberId : String) : Bool :=
  members.any (·.memberId == memberId)

/-- A roster keeps what is under the ids of its members, and adds their membership events. -/
theorem syncRoster_tables (s : ReactionsState) (members : List JoinedMembership) :
    (∀ k, (s.syncRoster members).raisedHands.lookup k =
        if present members k then s.raisedHands.lookup k else none) ∧
      (∀ k, (s.syncRoster members).lastReactionAt.lookup k =
        if present members k then s.lastReactionAt.lookup k else none) ∧
      (s.syncRoster members).knownMembershipEvents =
        members.foldl rememberMember
          (retain s.knownMembershipEvents fun k _ => present members k) ∧
      (s.syncRoster members).config = s.config ∧
      (s.syncRoster members).reactions = s.reactions := by
  have kept : ∀ {β : Type} (t : Table String β) (k : String),
      (retain t fun k _ => present members k).lookup k =
        if present members k then t.lookup k else none := by
    intro β t k
    rw [lookup_retain]
    split
    · next there => cases t.lookup k <;> simp [there, Option.filter]
    · next gone => cases t.lookup k <;> simp [gone, Option.filter]
  unfold ReactionsState.syncRoster
  dsimp only
  split <;> exact ⟨kept _, kept _, rfl, rfl, rfl⟩

theorem lookup_showOwnHand {s : ReactionsState} {own userId memberId : String} {now : ℕ}
    (other : own ≠ memberId) :
    (s.showOwnHand own userId now).raisedHands.lookup memberId =
      s.raisedHands.lookup memberId := by
  unfold showOwnHand
  dsimp only
  split
  · split
    · rfl
    · exact AList.lookup_insert_ne other.symm
  · split
    · rfl
    · exact AList.lookup_erase_ne other.symm

@[simp] theorem showOwnHand_config (s : ReactionsState) (own userId : String) (now : ℕ) :
    (s.showOwnHand own userId now).config = s.config := by
  unfold showOwnHand
  dsimp only
  split
  · split <;> rfl
  · split <;> rfl

theorem lookup_ownMove {s : ReactionsState} {own userId memberId : String} {now : ℕ}
    (other : own ≠ memberId) (move : OwnMove) :
    (CallState.ownMove own userId now s move).raisedHands.lookup memberId =
      s.raisedHands.lookup memberId := by
  cases move with
  | requested up =>
      change (s.requestHand up own userId now).1.raisedHands.lookup memberId = _
      unfold requestHand
      split
      · rfl
      · exact lookup_showOwnHand other
  | raised reactionEventId on => exact lookup_showOwnHand other
  | lowered => exact lookup_showOwnHand other
  | refused error => exact lookup_showOwnHand other
  | _ => rfl

/-- Of our own moves only a join sets the configuration. -/
theorem config_ownMove (s : ReactionsState) (own userId : String) (now : ℕ) (move : OwnMove) :
    (CallState.ownMove own userId now s move).config = s.config ∨
      ∃ config, move = .joined config ∧ (CallState.ownMove own userId now s move).config = config := by
  cases move with
  | joined config => exact .inr ⟨config, rfl, rfl⟩
  | requested up =>
      refine .inl ?_
      change (s.requestHand up own userId now).1.config = _
      unfold requestHand
      split
      · rfl
      · exact showOwnHand_config _ own userId now
  | raised reactionEventId on => exact .inl (showOwnHand_config _ own userId now)
  | lowered => exact .inl (showOwnHand_config _ own userId now)
  | refused error => exact .inl (showOwnHand_config _ own userId now)
  | _ => exact .inl rfl

end MatrixRtc.CallRooms

import MatrixRtc.CallRooms
import MatrixRtc.Outboxes
import MatrixRtc.StepRuns

/-!
# The sender of our hand

What is asked of our hand is only recorded; a task of its own brings the hand there, one
attempt at a time and without the room's lock, so that requests, refreshes of our membership,
the room's events and the leave all come between any two of its steps. The task marks what
changed as seen, looks at what the hand needs, sends it, is told what became of it, and waits
where nothing is needed or an attempt failed for now. One participation is followed, from its
join on.
-/
namespace MatrixRtc.HandSenders
open CallRooms DirectCalls HostAnswers MemberEvents RaisedHands RaisedHands.ReactionsState
open StepRuns Tables

/-- Where `follow_hand` stands in its loop. -/
inductive Phase where
  | looking
  /-- Every change so far is marked as seen. -/
  | marked
  | sending (send : HandSend)
  | waiting (timer : Bool)
  | stopped
deriving DecidableEq, Repr

/-- One participation. `current` is our membership event, and none once we left; `unseen` says
that a request or our membership event changed since the sender last marked them seen. Beside
them, the annotations the homeserver acknowledged, newest first, those it acknowledged the
redaction of, was asked once to redact or reported redacted, and of these the last. -/
structure HandSender where
  call : CallState
  current : Option String
  phase : Phase
  unseen : Bool
  landed : List String
  undone : List String
  seen : List String

namespace HandSender

def reactions (s : HandSender) : ReactionsState := s.call.reactions

def withReactions (s : HandSender) (r : ReactionsState) : HandSender :=
  { s with call := { s.call with reactions := r } }

/-- A join into a slot as it stands, and its sender before its first look. -/
def start (call : CallState) (config : ReactionsConfig) (event : String) : HandSender :=
  { call := { call with reactions := (call.reactions.configure config).resetOwn }
    current := some event
    phase := .looking
    unseen := false
    landed := []
    undone := []
    seen := [] }

end HandSender

inductive Action where
  | request (up : Bool) (now : ℕ)
  /-- A refresh of our membership. -/
  | moved (event : String)
  /-- What the room tells the slot, besides our own moves. -/
  | room (move : RoomMove)
  | mark
  | look
  | answered (outcome : Except Outboxes.SendFailure (Option String)) (now : ℕ)
  /-- The wait of the sender ends. -/
  | wake
  | leave

section
variable (graphemes : String → List String) (memberId userId : String)

namespace HandSender

/-- `CallRoomState::request_hand`: refused where reactions are off or we are not joined; to ask
for what was asked is no new request. -/
def request (s : HandSender) (up : Bool) (now : ℕ) : HandSender :=
  let r := s.reactions
  if up && !r.config.enabled then s
  else if !(up || r.handWanted) || s.current.isNone then s
  else
    { s.withReactions (r.requestHand up memberId userId now).1 with
      unseen := s.unseen || up != r.handWanted }

/-- `CallRoomState::hand_step`, and what the sender does with it. -/
def look (s : HandSender) : HandSender :=
  match s.reactions.handStep s.current with
  | some send => { s with phase := .sending send }
  | none =>
      let requests := s.reactions.handRequests
      { s.withReactions s.reactions.settleHand with
        phase := .waiting false
        unseen := s.unseen || requests.settled != requests.latest }

/-- `CallRoomState::hand_sent`: the outcome of one send. The annotation that an acknowledged one
replaces was asked once to be redacted. -/
def handSent (s : HandSender) (send : HandSend)
    (outcome : Except Outboxes.SendFailure (Option String)) (now : ℕ) : HandSender :=
  if s.current.isNone then { s with phase := .stopped }
  else
    match send, outcome with
    | .annotate on replacing, .ok eventId =>
        let eventId := eventId.getD ""
        { s.withReactions (s.reactions.handRaised memberId userId eventId on now) with
          phase := .looking
          landed := eventId :: s.landed
          undone := replacing.toList ++ s.undone }
    | .redact eventId, .ok _ =>
        { s.withReactions (s.reactions.handLowered memberId userId now) with
          phase := .looking
          undone := eventId :: s.undone }
    | _, .error (.refused error) =>
        { s.withReactions (s.reactions.refuseHand memberId userId error now) with
          phase := .looking
          unseen := true }
    | _, .error (.failed _) | _, .error .timedOut => { s with phase := .waiting true }
    | _, .error _ => { s with phase := .stopped }

end HandSender

/-- One step. A wait ends by a change, by its timer where it has one, and for good with the
participation. The leave asks once to redact what stands (`CallPendingLeave`). -/
def step (s : HandSender) : Action → Option HandSender
  | .request up now => some (s.request memberId userId up now)
  | .moved event =>
      if s.current.isSome then some { s with current := some event, unseen := true } else none
  | .room move =>
      let told := { s with call := s.call.apply graphemes move }
      match move with
      | .own .. => none
      | .redacted eventId =>
          some { told with undone := eventId :: s.undone, seen := eventId :: s.seen }
      | .roster _ | .timeline .. | .relations .. => some told
  | .mark => if s.phase = .looking then some { s with phase := .marked, unseen := false } else none
  | .look => if s.phase = .marked then some s.look else none
  | .answered outcome now =>
      match s.phase with
      | .sending send => some (s.handSent memberId userId send outcome now)
      | _ => none
  | .wake =>
      match s.phase with
      | .waiting timer =>
          if s.current.isNone then some { s with phase := .stopped }
          else if timer || s.unseen then some { s with phase := .looking }
          else none
      | _ => none
  | .leave =>
      if s.current.isSome then
        let standing := s.reactions.ownRaisedHand.map (·.reactionEventId)
        some { s.withReactions s.reactions.resetOwn with
          current := none
          unseen := true
          undone := standing.toList ++ s.undone }
      else none

end

section
variable {graphemes : String → List String} {memberId userId : String} {r : ReactionsState}
  {now : ℕ}

/-- What is asked of our hand, where it landed, and how the requests for it stand. -/
structure SameHand (r r' : ReactionsState) : Prop where
  own : r'.ownRaisedHand = r.ownRaisedHand
  wanted : r'.handWanted = r.handWanted
  requests : r'.handRequests = r.handRequests

theorem SameHand.rfl : SameHand r r := ⟨.refl _, .refl _, .refl _⟩

theorem SameHand.trans {r' r'' : ReactionsState} (h : SameHand r r') (h' : SameHand r' r'') :
    SameHand r r'' :=
  ⟨h'.own.trans h.own, h'.wanted.trans h.wanted, h'.requests.trans h.requests⟩

theorem sameHand_show (r : ReactionsState) (memberId userId : String) (now : ℕ) :
    SameHand r (r.showOwnHand memberId userId now) := by
  unfold showOwnHand
  dsimp only
  split
  · split <;> exact ⟨rfl, rfl, rfl⟩
  · split <;> exact ⟨rfl, rfl, rfl⟩

theorem sameHand_ingest (event : RawTimelineEvent) (members : List JoinedMembership)
    (backfill : Bool) : SameHand r (r.ingest graphemes event members backfill now) := by
  rcases @ingest_cases graphemes r event members backfill now with
    same | ⟨member, emoji, name, same⟩ | ⟨_, member, -, -, same⟩
  · rw [same]
    exact .rfl
  · rw [same, ingestReaction]
    split
    · exact .rfl
    · split <;> exact ⟨rfl, rfl, rfl⟩
  · rw [same, ingestHand]
    cases r.raisedHands.lookup member.memberId with
    | none => exact ⟨rfl, rfl, rfl⟩
    | some existing =>
        dsimp only
        split <;> exact ⟨rfl, rfl, rfl⟩

theorem sameHand_foldl (backfill : Bool) (events : List RawTimelineEvent) (s : CallState) :
    SameHand s.reactions (events.foldl (CallState.ingest graphemes backfill now) s).reactions := by
  induction events generalizing s with
  | nil => exact .rfl
  | cons event events ih =>
      exact (sameHand_ingest event s.members backfill).trans (ih (s.ingest graphemes backfill now
        event))

theorem sameHand_roster (r : ReactionsState) (members : List JoinedMembership) :
    SameHand r (r.syncRoster members) := by
  unfold ReactionsState.syncRoster
  dsimp only
  split <;> exact ⟨rfl, rfl, rfl⟩

theorem sameHand_apply (s : CallState) {move : RoomMove}
    (told : ∀ m u n own, move ≠ .own m u n own) (kept : ∀ eventId, move ≠ .redacted eventId) :
    SameHand s.reactions (s.apply graphemes move).reactions := by
  cases move with
  | roster members => exact sameHand_roster _ members
  | timeline events now => exact sameHand_foldl false events s
  | relations target events now =>
      rw [apply_relations]
      obtain ⟨own, wanted, requests⟩ := @sameHand_foldl graphemes now true events
        { s with reactions :=
          { s.reactions with relationsFetched := s.reactions.relationsFetched.insert target } }
      exact ⟨own, wanted, requests⟩
  | redacted eventId => exact absurd rfl (kept eventId)
  | own m u n own => exact absurd rfl (told m u n own)

theorem redacted_hand (r : ReactionsState) (eventId : String) :
    (r.onEventRedacted eventId).ownRaisedHand =
        r.ownRaisedHand.filter (·.reactionEventId != eventId) ∧
      (r.onEventRedacted eventId).handWanted = r.handWanted ∧
      (r.onEventRedacted eventId).handRequests = r.handRequests := by
  unfold onEventRedacted
  dsimp only
  split <;> exact ⟨rfl, rfl, rfl⟩

theorem requested_hand (up : Bool) (other : up ≠ r.handWanted) :
    (r.requestHand up memberId userId now).1.ownRaisedHand = r.ownRaisedHand ∧
      (r.requestHand up memberId userId now).1.handWanted = up ∧
      (r.requestHand up memberId userId now).1.handRequests =
        { r.handRequests with latest := r.handRequests.latest + 1 } := by
  obtain ⟨own, wanted, requests⟩ :=
    sameHand_show { r with handWanted := up } memberId userId now
  rw [requestHand, if_neg other]
  exact ⟨own, wanted, by simp only [requests]⟩

theorem requested_same (up : Bool) (same : up = r.handWanted) :
    (r.requestHand up memberId userId now).1 = r := by
  rw [requestHand, if_pos same]

theorem raised_hand (eventId on : String) :
    (r.handRaised memberId userId eventId on now).ownRaisedHand = some ⟨eventId, on⟩ ∧
      (r.handRaised memberId userId eventId on now).handWanted = r.handWanted ∧
      (r.handRaised memberId userId eventId on now).handRequests = r.handRequests := by
  obtain ⟨own, wanted, requests⟩ :=
    sameHand_show { r with ownRaisedHand := some ⟨eventId, on⟩ } memberId userId now
  exact ⟨own, wanted, requests⟩

theorem lowered_hand :
    (r.handLowered memberId userId now).ownRaisedHand = none ∧
      (r.handLowered memberId userId now).handWanted = r.handWanted ∧
      (r.handLowered memberId userId now).handRequests = r.handRequests := by
  obtain ⟨own, wanted, requests⟩ :=
    sameHand_show { r with ownRaisedHand := none } memberId userId now
  exact ⟨own, wanted, requests⟩

theorem refused_hand (error : CommandError) :
    (r.refuseHand memberId userId error now).ownRaisedHand = r.ownRaisedHand ∧
      (r.refuseHand memberId userId error now).handWanted = r.ownRaisedHand.isSome ∧
      (r.refuseHand memberId userId error now).handRequests.latest = r.handRequests.latest ∧
      (r.refuseHand memberId userId error now).handRequests.settled = r.handRequests.latest := by
  obtain ⟨own, wanted, requests⟩ :=
    sameHand_show { r with handWanted := r.ownRaisedHand.isSome } memberId userId now
  rw [refuseHand]
  exact ⟨own, wanted, by simp only [requests], by simp only [requests]⟩

end

/-- The annotation that a send is to undo. -/
def undoes : HandSend → Option String
  | .annotate _ replacing => replacing
  | .redact eventId => some eventId

namespace HandSender
variable (s : HandSender)

def own : Option OwnRaisedHand := s.reactions.ownRaisedHand

def wanted : Bool := s.reactions.handWanted

/-- Every request is answered. -/
def Settled : Prop := s.reactions.handRequests.settled = s.reactions.handRequests.latest

theorem Settled.answered {s : HandSender} (settled : s.Settled) :
    ∀ request ≤ s.reactions.handRequests.latest,
      (handAnswer s.reactions.handRequests request).isSome := by
  intro request asked
  apply handAnswer_isSome.mpr
  exact .inr (.inl (asked.trans (Nat.le_of_eq settled.symm)))

/-- The last annotation that landed was reported redacted. -/
def TakenDown : Prop := ∃ eventId ∈ s.landed.head?, eventId ∈ s.seen

/-- The hand stands on `event` as it was asked to, unless it was taken down there. -/
def StandsOn (event : String) : Prop :=
  (s.wanted = false → s.own = none) ∧
    (s.wanted = true → (∃ hand, s.own = some hand ∧ hand.annotatedMembershipEventId = event) ∨
      s.own = none ∧ s.TakenDown)

end HandSender

/-- What the sender's bookkeeping comes to between any two steps. -/
structure Kept (s : HandSender) : Prop where
  counted : s.reactions.handRequests.settled ≤ s.reactions.handRequests.latest
  last : ∀ hand, s.own = some hand → s.landed.head? = some hand.reactionEventId
  accounted : ∀ eventId ∈ s.landed, eventId ∈ s.undone ∨
    ∃ hand, s.own = some hand ∧ hand.reactionEventId = eventId
  flying : ∀ send, s.phase = .sending send → ∀ hand, s.own = some hand →
    undoes send = some hand.reactionEventId
  down : s.current.isSome → s.Settled → s.wanted = false →
    s.own = none ∧ ∀ on replacing, s.phase ≠ .sending (.annotate on replacing)
  up : s.current.isSome → s.Settled → s.wanted = true →
    (s.own.isSome ∨ s.TakenDown) ∧ ∀ eventId, s.phase ≠ .sending (.redact eventId)
  waits : s.phase = .waiting false → s.unseen = false → ∀ event, s.current = some event →
    s.Settled ∧ s.StandsOn event

section
variable {graphemes : String → List String} {memberId userId : String} {s t : HandSender}

/-- What the invariant says is said of the hand, whatever else the slot was told. -/
theorem Kept.of_same (k : Kept s) (hand : SameHand s.reactions t.reactions)
    (current : t.current = s.current) (phase : t.phase = s.phase) (unseen : t.unseen = s.unseen)
    (landed : t.landed = s.landed) (undone : t.undone = s.undone) (seen : t.seen = s.seen) :
    Kept t := by
  have own : t.own = s.own := hand.own
  have wanted : t.wanted = s.wanted := hand.wanted
  have settled : t.Settled = s.Settled := by
    rw [HandSender.Settled, HandSender.Settled, hand.requests]
  have takenDown : t.TakenDown = s.TakenDown := by
    rw [HandSender.TakenDown, HandSender.TakenDown, landed, seen]
  constructor
  · rw [hand.requests]
    exact k.counted
  · rw [own, landed]
    exact k.last
  · rw [own, landed, undone]
    exact k.accounted
  · rw [own, phase]
    exact k.flying
  · rw [current, settled, wanted, own, phase]
    exact k.down
  · rw [current, settled, wanted, own, phase, takenDown]
    exact k.up
  · simp only [HandSender.StandsOn, phase, unseen, current, settled, own, wanted, takenDown]
    exact k.waits

theorem Kept.rests (k : Kept s) {phase : Phase} {unseen : Bool}
    (idle : ∀ send, phase ≠ .sending send) (awake : phase ≠ .waiting false) :
    Kept { s with phase := phase, unseen := unseen } where
  counted := k.counted
  last := k.last
  accounted := k.accounted
  flying send flies := absurd flies (idle send)
  down joined settled lowered := ⟨(k.down joined settled lowered).1, fun _ _ => idle _⟩
  up joined settled raised := ⟨(k.up joined settled raised).1, fun _ => idle _⟩
  waits waiting := absurd waiting awake

theorem Kept.moved (k : Kept s) (joined : s.current.isSome) (event : String) :
    Kept { s with current := some event, unseen := true } where
  counted := k.counted
  last := k.last
  accounted := k.accounted
  flying := k.flying
  down _ := k.down joined
  up _ := k.up joined
  waits _ seen := by cases seen

/-- A new request is unanswered. -/
theorem Kept.request (k : Kept s) (up : Bool) (now : ℕ) :
    Kept (s.request memberId userId up now) := by
  unfold HandSender.request
  dsimp only
  split
  · exact k
  · split
    · exact k
    · by_cases same : up = s.reactions.handWanted
      · rw [requested_same up same]
        have unseen : (s.unseen || up != s.reactions.handWanted) = s.unseen := by simp [same]
        exact k.of_same .rfl rfl rfl unseen rfl rfl rfl
      · obtain ⟨own, wanted, requests⟩ :=
          @requested_hand memberId userId s.reactions now up same
        have open_ : ¬(s.withReactions (s.reactions.requestHand up memberId userId
            now).1).Settled := by
          intro settled
          have settled : (s.reactions.requestHand up memberId userId now).1.handRequests.settled =
            (s.reactions.requestHand up memberId userId now).1.handRequests.latest := settled
          have counted := k.counted
          rw [requests] at settled
          dsimp only at settled
          omega
        constructor
        · have counted := k.counted
          change (s.reactions.requestHand up memberId userId now).1.handRequests.settled ≤
            (s.reactions.requestHand up memberId userId now).1.handRequests.latest
          rw [requests]
          dsimp only
          omega
        · intro hand stands
          exact k.last hand (own.symm.trans stands)
        · intro eventId there
          refine (k.accounted eventId there).imp_right fun ⟨hand, stands, is⟩ => ?_
          exact ⟨hand, own.trans stands, is⟩
        · intro send flies hand stands
          exact k.flying send flies hand (own.symm.trans stands)
        · exact fun _ settled => absurd settled open_
        · exact fun _ settled => absurd settled open_
        · intro _ seen
          simp [same] at seen

/-- A redaction that is reported takes the hand down, and is remembered. -/
theorem Kept.redacted (k : Kept s) (eventId : String) :
    Kept { s with
      call := { s.call with reactions := s.call.reactions.onEventRedacted eventId }
      undone := eventId :: s.undone
      seen := eventId :: s.seen } := by
  obtain ⟨own, wanted, requests⟩ := redacted_hand s.reactions eventId
  have stood {hand : OwnRaisedHand}
      (stands : (s.reactions.onEventRedacted eventId).ownRaisedHand = some hand) :
      s.own = some hand := by
    rw [own, Option.filter_eq_some_iff] at stands
    exact stands.1
  have gone (lowered : s.own = none) :
      (s.reactions.onEventRedacted eventId).ownRaisedHand = none := by
    rw [own]
    exact congrArg (Option.filter _) lowered
  have kept_or {hand : OwnRaisedHand} (stands : s.own = some hand) :
      (s.reactions.onEventRedacted eventId).ownRaisedHand = some hand ∨
        (s.reactions.onEventRedacted eventId).ownRaisedHand = none ∧
          hand.reactionEventId = eventId := by
    have stands : s.reactions.ownRaisedHand = some hand := stands
    rw [own, stands]
    by_cases is : hand.reactionEventId = eventId
    · exact .inr ⟨by simp [Option.filter, is], is⟩
    · exact .inl (by simp [Option.filter, is])
  have settles : (s.reactions.onEventRedacted eventId).handRequests.settled =
      (s.reactions.onEventRedacted eventId).handRequests.latest → s.Settled := by
    rw [requests]
    exact id
  have down_again {hand : OwnRaisedHand} (stands : s.own = some hand)
      (is : hand.reactionEventId = eventId) :
      ∃ e ∈ s.landed.head?, e ∈ eventId :: s.seen :=
    ⟨hand.reactionEventId, k.last hand stands, is ▸ List.mem_cons_self⟩
  have down_still (taken : s.TakenDown) : ∃ e ∈ s.landed.head?, e ∈ eventId :: s.seen := by
    obtain ⟨e, is_last, reported⟩ := taken
    exact ⟨e, is_last, List.mem_cons_of_mem _ reported⟩
  constructor
  · change (s.reactions.onEventRedacted eventId).handRequests.settled ≤
      (s.reactions.onEventRedacted eventId).handRequests.latest
    rw [requests]
    exact k.counted
  · exact fun hand stands => k.last hand (stood stands)
  · intro e there
    rcases k.accounted e there with undone | ⟨hand, stands, is⟩
    · exact .inl (List.mem_cons_of_mem _ undone)
    · rcases kept_or stands with still | ⟨-, is_event⟩
      · exact .inr ⟨hand, still, is⟩
      · exact .inl (by rw [← is, is_event]; exact List.mem_cons_self)
  · exact fun send flies hand stands => k.flying send flies hand (stood stands)
  · intro joined settled lowered
    obtain ⟨none_up, grounded⟩ := k.down joined (settles settled) (wanted.symm.trans lowered)
    exact ⟨gone none_up, grounded⟩
  · intro joined settled raised
    obtain ⟨up, grounded⟩ := k.up joined (settles settled) (wanted.symm.trans raised)
    refine ⟨?_, grounded⟩
    rcases up with up | taken
    · obtain ⟨hand, stands⟩ := Option.isSome_iff_exists.mp up
      rcases kept_or stands with still | ⟨-, is_event⟩
      · exact .inl (Option.isSome_of_eq_some still)
      · exact .inr (down_again stands is_event)
    · exact .inr (down_still taken)
  · intro waiting unseen event joined
    obtain ⟨settled, lowered, raised⟩ := k.waits waiting unseen event joined
    refine ⟨?_, fun down => gone (lowered (wanted.symm.trans down)), fun up => ?_⟩
    · change (s.reactions.onEventRedacted eventId).handRequests.settled =
        (s.reactions.onEventRedacted eventId).handRequests.latest
      rw [requests]
      exact settled
    · rcases raised (wanted.symm.trans up) with ⟨hand, stands, is_there⟩ | ⟨none_up, taken⟩
      · rcases kept_or stands with still | ⟨none_up, is_event⟩
        · exact .inl ⟨hand, still, is_there⟩
        · exact .inr ⟨none_up, down_again stands is_event⟩
      · exact .inr ⟨gone none_up, down_still taken⟩

/-- What `hand_step` asks for undoes what stands, and nothing where the hand stands as asked. -/
theorem handStep_some {send : HandSend} (asked : s.reactions.handStep s.current = some send) :
    (∀ hand, s.own = some hand → undoes send = some hand.reactionEventId) ∧
      (∀ on replacing, send = .annotate on replacing → s.wanted = true) ∧
      ∀ eventId, send = .redact eventId → s.wanted = false ∧ s.own.isSome := by
  unfold HandSender.own HandSender.wanted
  cases current : s.current with
  | none =>
      rw [current] at asked
      cases asked
  | some event =>
      rw [current, handStep] at asked
      cases own : s.reactions.ownRaisedHand with
      | none =>
          cases wanted : s.reactions.handWanted with
          | true =>
              simp only [own, wanted] at asked
              cases asked
              exact ⟨fun _ stands => (by cases stands), fun _ _ _ => rfl, fun _ is => (by cases is)⟩
          | false => simp [own, wanted] at asked
      | some hand =>
          cases wanted : s.reactions.handWanted with
          | true =>
              simp only [own, wanted] at asked
              split at asked
              · cases asked
                refine ⟨fun _ stands => ?_, fun _ _ _ => rfl, fun _ is => by cases is⟩
                rw [← Option.some.inj stands]
                rfl
              · cases asked
          | false =>
              simp only [own, wanted] at asked
              cases asked
              refine ⟨fun _ stands => ?_, fun _ _ is => (by cases is), fun _ _ => ⟨rfl, rfl⟩⟩
              rw [← Option.some.inj stands]
              rfl

theorem handStep_none {event : String} (nothing : s.reactions.handStep (some event) = none) :
    (s.wanted = false → s.own = none) ∧
      (s.wanted = true → ∃ hand, s.own = some hand ∧ hand.annotatedMembershipEventId = event) := by
  unfold HandSender.own HandSender.wanted
  rw [handStep] at nothing
  cases own : s.reactions.ownRaisedHand with
  | none =>
      cases wanted : s.reactions.handWanted with
      | true => simp [own, wanted] at nothing
      | false => exact ⟨fun _ => rfl, fun raised => by cases raised⟩
  | some hand =>
      cases wanted : s.reactions.handWanted with
      | true =>
          have there : hand.annotatedMembershipEventId = event := by
            simpa [own, wanted] using nothing
          exact ⟨fun lowered => (by cases lowered), fun _ => ⟨hand, rfl, there⟩⟩
      | false => simp [own, wanted] at nothing

/-- A look starts what the hand needs, or answers every request. -/
theorem Kept.look (k : Kept s) : Kept s.look := by
  unfold HandSender.look
  cases asked : s.reactions.handStep s.current with
  | some send =>
      obtain ⟨undo, raises, lowers⟩ := handStep_some asked
      exact
        { counted := k.counted
          last := k.last
          accounted := k.accounted
          flying := fun send' flies hand stands => by
            cases flies
            exact undo hand stands
          down := fun joined settled lowered => by
            refine ⟨(k.down joined settled lowered).1, fun on replacing flies => ?_⟩
            cases flies
            have raised := raises on replacing rfl
            have lowered : s.wanted = false := lowered
            rw [raised] at lowered
            cases lowered
          up := fun joined settled raised => by
            refine ⟨(k.up joined settled raised).1, fun eventId flies => ?_⟩
            cases flies
            have lowered := (lowers eventId rfl).1
            have raised : s.wanted = true := raised
            rw [lowered] at raised
            cases raised
          waits := fun waiting => by cases waiting }
  | none =>
      -- Where we have left there is no event to stand on, and nothing is said of the hand.
      have stands (event : String) (joined : s.current = some event) :
          (s.wanted = false → s.own = none) ∧
            (s.wanted = true → ∃ hand, s.own = some hand ∧
              hand.annotatedMembershipEventId = event) :=
        handStep_none (joined ▸ asked)
      exact
        { counted := le_rfl
          last := k.last
          accounted := k.accounted
          flying := fun send flies => by cases flies
          down := fun joined _ lowered => by
            obtain ⟨event, is_event⟩ := Option.isSome_iff_exists.mp joined
            exact ⟨(stands event is_event).1 lowered, fun _ _ flies => by cases flies⟩
          up := fun joined _ raised => by
            obtain ⟨event, is_event⟩ := Option.isSome_iff_exists.mp joined
            obtain ⟨hand, up, -⟩ := (stands event is_event).2 raised
            exact ⟨.inl (Option.isSome_of_eq_some up), fun _ flies => by cases flies⟩
          waits := fun _ _ event joined =>
            ⟨rfl, (stands event joined).1, fun raised => .inl ((stands event joined).2 raised)⟩ }

section
variable {send : HandSend} (now : ℕ)

/-- An annotation that is acknowledged is where the hand stands, and what it replaces is undone. -/
theorem Kept.raised (k : Kept s) {on : String} {replacing : Option String}
    (joined : s.current.isSome) (flies : s.phase = .sending (.annotate on replacing))
    (eventId : String) :
    Kept { s.withReactions (s.reactions.handRaised memberId userId eventId on now) with
      phase := .looking
      landed := eventId :: s.landed
      undone := replacing.toList ++ s.undone } := by
  obtain ⟨own, wanted, requests⟩ := @raised_hand memberId userId s.reactions now eventId on
  have settles : (s.reactions.handRaised memberId userId eventId on now).handRequests.settled =
      (s.reactions.handRaised memberId userId eventId on now).handRequests.latest →
        s.Settled := by
    rw [requests]
    exact id
  exact
    { counted := by
        change (s.reactions.handRaised memberId userId eventId on now).handRequests.settled ≤
          (s.reactions.handRaised memberId userId eventId on now).handRequests.latest
        rw [requests]
        exact k.counted
      last := fun hand stands => by
        have stands := own.symm.trans stands
        rw [← Option.some.inj stands]
        rfl
      accounted := fun e there => by
        rcases List.mem_cons.mp there with rfl | there
        · exact .inr ⟨_, own, rfl⟩
        · rcases k.accounted e there with undone | ⟨hand, stands, is⟩
          · exact .inl (List.mem_append_right _ undone)
          · have replaced : replacing = some hand.reactionEventId := k.flying _ flies hand stands
            exact .inl (by simp [replaced, is])
      flying := fun _ flies => by cases flies
      down := fun _ settled lowered =>
        absurd flies ((k.down joined (settles settled) (wanted.symm.trans lowered)).2 _ _)
      up := fun _ _ _ => ⟨.inl (Option.isSome_of_eq_some own), fun _ flies => by cases flies⟩
      waits := fun waiting => by cases waiting }

/-- A redaction that is acknowledged leaves the hand down. -/
theorem Kept.lowered (k : Kept s) {eventId : String} (joined : s.current.isSome)
    (flies : s.phase = .sending (.redact eventId)) :
    Kept { s.withReactions (s.reactions.handLowered memberId userId now) with
      phase := .looking
      undone := eventId :: s.undone } := by
  obtain ⟨own, wanted, requests⟩ := @lowered_hand memberId userId s.reactions now
  have settles : (s.reactions.handLowered memberId userId now).handRequests.settled =
      (s.reactions.handLowered memberId userId now).handRequests.latest → s.Settled := by
    rw [requests]
    exact id
  exact
    { counted := by
        change (s.reactions.handLowered memberId userId now).handRequests.settled ≤
          (s.reactions.handLowered memberId userId now).handRequests.latest
        rw [requests]
        exact k.counted
      last := fun hand stands => by
        have stands := own.symm.trans stands
        cases stands
      accounted := fun e there => by
        rcases k.accounted e there with undone | ⟨hand, stands, is⟩
        · exact .inl (List.mem_cons_of_mem _ undone)
        · have redacted : some eventId = some hand.reactionEventId := k.flying _ flies hand stands
          exact .inl (by rw [← is, Option.some.inj redacted]; exact List.mem_cons_self)
      flying := fun _ flies => by cases flies
      down := fun _ _ _ => ⟨own, fun _ _ flies => by cases flies⟩
      up := fun _ settled raised =>
        absurd flies ((k.up joined (settles settled) (wanted.symm.trans raised)).2 _)
      waits := fun waiting => by cases waiting }

/-- After a refusal the hand is wanted where it is. -/
theorem Kept.refused (k : Kept s) (error : CommandError) :
    Kept { s.withReactions (s.reactions.refuseHand memberId userId error now) with
      phase := .looking
      unseen := true } := by
  obtain ⟨own, wanted, latest, settled⟩ := @refused_hand memberId userId s.reactions now error
  exact
    { counted := (settled.trans latest.symm).le
      last := fun hand stands => k.last hand (own.symm.trans stands)
      accounted := fun e there => by
        refine (k.accounted e there).imp_right fun ⟨hand, stands, is⟩ => ?_
        exact ⟨hand, own.trans stands, is⟩
      flying := fun _ flies => by cases flies
      down := fun _ _ lowered => by
        have lowered := wanted.symm.trans lowered
        rw [Option.isSome_eq_false_iff, Option.isNone_iff_eq_none] at lowered
        exact ⟨own.trans lowered, fun _ _ flies => by cases flies⟩
      up := fun _ _ raised => by
        have raised := wanted.symm.trans raised
        refine ⟨.inl ?_, fun _ flies => by cases flies⟩
        rw [← own] at raised
        exact raised
      waits := fun waiting => by cases waiting }

theorem Kept.handSent (k : Kept s) (flies : s.phase = .sending send)
    (outcome : Except Outboxes.SendFailure (Option String)) :
    Kept (s.handSent memberId userId send outcome now) := by
  unfold HandSender.handSent
  split
  · exact k.rests (fun _ h => by cases h) (fun h => by cases h)
  · rename_i joined
    have joined : s.current.isSome := by simpa [Option.isSome_iff_ne_none] using joined
    split
    · exact k.raised now joined flies _
    · exact k.lowered now joined flies
    · exact k.refused now _
    · exact k.rests (fun _ h => by cases h) (fun h => by cases h)
    · exact k.rests (fun _ h => by cases h) (fun h => by cases h)
    · exact k.rests (fun _ h => by cases h) (fun h => by cases h)

end

/-- With the participation goes all that was asked. -/
theorem Kept.leave (k : Kept s) :
    Kept { s.withReactions s.reactions.resetOwn with
      current := none
      unseen := true
      undone := (s.reactions.ownRaisedHand.map (·.reactionEventId)).toList ++ s.undone } where
  counted := le_rfl
  last _ stands := by cases stands
  accounted e there := by
    rcases k.accounted e there with undone | ⟨hand, stands, is⟩
    · exact .inl (List.mem_append_right _ undone)
    · have stands : s.reactions.ownRaisedHand = some hand := stands
      exact .inl (by simp [stands, is])
  flying _ _ _ stands := by cases stands
  down joined := by cases joined
  up joined := by cases joined
  waits _ _ _ joined := by cases joined

/-- Every step keeps it. -/
theorem kept_step {a : Action} (k : Kept s) (h : step graphemes memberId userId s a = some t) :
    Kept t := by
  cases a with
  | request up now =>
      cases h
      exact k.request up now
  | moved event =>
      simp only [step] at h
      split_ifs at h with joined
      cases h
      exact k.moved joined event
  | room move =>
      cases move with
      | roster members =>
          cases h
          exact k.of_same (@sameHand_apply graphemes s.call (.roster members) (by simp) (by simp))
            rfl rfl rfl rfl rfl rfl
      | timeline events now =>
          cases h
          exact k.of_same (@sameHand_apply graphemes s.call (.timeline events now) (by simp)
            (by simp)) rfl rfl rfl rfl rfl rfl
      | relations target events now =>
          cases h
          exact k.of_same (@sameHand_apply graphemes s.call (.relations target events now) (by simp)
            (by simp)) rfl rfl rfl rfl rfl rfl
      | redacted eventId =>
          cases h
          exact k.redacted eventId
      | own => cases h
  | mark =>
      simp only [step] at h
      split_ifs at h
      cases h
      exact k.rests (fun _ h => by cases h) (fun h => by cases h)
  | look =>
      simp only [step] at h
      split_ifs at h
      cases h
      exact k.look
  | answered outcome now =>
      simp only [step] at h
      split at h
      · cases h
        exact k.handSent now ‹_› outcome
      · cases h
  | wake =>
      simp only [step] at h
      split at h
      · split_ifs at h
        · cases h
          exact k.rests (fun _ h => by cases h) (fun h => by cases h)
        · cases h
          exact k.rests (fun _ h => by cases h) (fun h => by cases h)
      · cases h
  | leave =>
      simp only [step] at h
      split_ifs at h
      cases h
      exact k.leave

theorem kept_start (call : CallState) (config : ReactionsConfig) (event : String) :
    Kept (.start call config event) where
  counted := le_rfl
  last _ stands := by cases stands
  accounted _ there := by cases there
  flying _ flies := by cases flies
  down _ _ _ := ⟨rfl, fun _ _ flies => by cases flies⟩
  up _ _ raised := by cases raised
  waits waiting := by cases waiting

/-- The hand is asked for, stands, or is being raised. -/
def Engaged (s : HandSender) : Prop :=
  s.wanted = true ∨ s.own.isSome ∨ ∃ on replacing, s.phase = .sending (.annotate on replacing)

theorem engaged_told {call : CallState} (hand : SameHand s.call.reactions call.reactions)
    (h : Engaged { s with call := call }) : Engaged s := by
  have wanted : call.reactions.handWanted = s.wanted := hand.wanted
  have own : call.reactions.ownRaisedHand = s.own := hand.own
  rcases h with raised | stands | flies
  · exact .inl (wanted.symm.trans raised)
  · exact .inr (.inl ((congrArg Option.isSome own).symm.trans stands))
  · exact .inr (.inr flies)

theorem engaged_of_idle (idle : ∀ send, t.phase ≠ .sending send) (h : Engaged t)
    (wanted : t.wanted = true → s.wanted = true) (own : t.own.isSome → s.own.isSome) :
    Engaged s := by
  rcases h with raised | stands | ⟨on, replacing, flies⟩
  · exact .inl (wanted raised)
  · exact .inr (.inl (own stands))
  · exact absurd flies (idle _)

theorem engaged_request {up : Bool} {now : ℕ} (h : Engaged (s.request memberId userId up now)) :
    Engaged s ∨ up = true := by
  unfold HandSender.request at h
  dsimp only at h
  split at h
  · exact .inl h
  · split at h
    · exact .inl h
    · by_cases same : up = s.reactions.handWanted
      · rw [requested_same up same] at h
        exact .inl h
      · obtain ⟨own, wanted, -⟩ := @requested_hand memberId userId s.reactions now up same
        rcases h with raised | stands | flies
        · exact .inr (wanted.symm.trans raised)
        · exact .inl (.inr (.inl ((congrArg Option.isSome own).symm.trans stands)))
        · exact .inl (.inr (.inr flies))

theorem engaged_look (h : Engaged s.look) : Engaged s := by
  unfold HandSender.look at h
  cases asked : s.reactions.handStep s.current with
  | none =>
      rw [asked] at h
      exact engaged_of_idle (fun _ h => by cases h) h id id
  | some send =>
      rw [asked] at h
      obtain ⟨-, raises, -⟩ := handStep_some asked
      rcases h with raised | stands | ⟨on, replacing, flies⟩
      · exact .inl raised
      · exact .inr (.inl stands)
      · cases flies
        exact .inl (raises on replacing rfl)

theorem engaged_handSent {send : HandSend} {now : ℕ} (flies : s.phase = .sending send)
    {outcome : Except Outboxes.SendFailure (Option String)}
    (h : Engaged (s.handSent memberId userId send outcome now)) : Engaged s := by
  unfold HandSender.handSent at h
  split at h
  · exact engaged_of_idle (fun _ h => by cases h) h id id
  · split at h
    · exact .inr (.inr ⟨_, _, flies⟩)
    · obtain ⟨own, wanted, -⟩ := @lowered_hand memberId userId s.reactions now
      refine engaged_of_idle (fun _ h => by cases h) h wanted.symm.trans fun stands => ?_
      have stands : (s.reactions.handLowered memberId userId now).ownRaisedHand.isSome := stands
      rw [own] at stands
      cases stands
    · rename_i error
      obtain ⟨own, wanted, -⟩ := @refused_hand memberId userId s.reactions now error
      rcases h with raised | stands | ⟨on, replacing, flies⟩
      · exact .inr (.inl (wanted.symm.trans raised))
      · exact .inr (.inl ((congrArg Option.isSome own).symm.trans stands))
      · cases flies
    · exact engaged_of_idle (fun _ h => by cases h) h id id
    · exact engaged_of_idle (fun _ h => by cases h) h id id
    · exact engaged_of_idle (fun _ h => by cases h) h id id

/-- Only a raise engages a hand that is down. -/
theorem engaged_step {a : Action} (h : step graphemes memberId userId s a = some t)
    (engaged : Engaged t) : Engaged s ∨ ∃ now, a = .request true now := by
  cases a with
  | request up now =>
      cases h
      refine (engaged_request engaged).imp_right fun raise => ?_
      subst raise
      exact ⟨now, rfl⟩
  | moved event =>
      simp only [step] at h
      split_ifs at h
      cases h
      exact .inl engaged
  | room move =>
      cases move with
      | roster members =>
          cases h
          have same := @sameHand_apply graphemes s.call (.roster members) (by simp) (by simp)
          exact .inl (engaged_told same engaged)
      | timeline events now =>
          cases h
          have same := @sameHand_apply graphemes s.call (.timeline events now) (by simp) (by simp)
          exact .inl (engaged_told same engaged)
      | relations target events now =>
          cases h
          have same := @sameHand_apply graphemes s.call (.relations target events now) (by simp)
            (by simp)
          exact .inl (engaged_told same engaged)
      | redacted eventId =>
          cases h
          obtain ⟨own, wanted, -⟩ := redacted_hand s.reactions eventId
          rcases engaged with raised | stands | flies
          · exact .inl (.inl (wanted.symm.trans raised))
          · have stands : (s.reactions.onEventRedacted eventId).ownRaisedHand.isSome := stands
            rw [own] at stands
            obtain ⟨hand, kept⟩ := Option.isSome_iff_exists.mp stands
            rw [Option.filter_eq_some_iff] at kept
            exact .inl (.inr (.inl (Option.isSome_of_eq_some kept.1)))
          · exact .inl (.inr (.inr flies))
      | own => cases h
  | mark =>
      simp only [step] at h
      split_ifs at h
      cases h
      exact .inl (engaged_of_idle (fun _ h => by cases h) engaged id id)
  | look =>
      simp only [step] at h
      split_ifs at h
      cases h
      exact .inl (engaged_look engaged)
  | answered outcome now =>
      simp only [step] at h
      split at h
      · cases h
        exact .inl (engaged_handSent ‹_› engaged)
      · cases h
  | wake =>
      simp only [step] at h
      split at h
      · split_ifs at h
        · cases h
          exact .inl (engaged_of_idle (fun _ h => by cases h) engaged id id)
        · cases h
          exact .inl (engaged_of_idle (fun _ h => by cases h) engaged id id)
      · cases h
  | leave =>
      simp only [step] at h
      split_ifs at h
      cases h
      rcases engaged with raised | stands | flies
      · cases raised
      · cases stands
      · exact .inl (.inr (.inr flies))

theorem phase_handSent {send : HandSend} {outcome : Except Outboxes.SendFailure (Option String)}
    {now : ℕ} : (s.handSent memberId userId send outcome now).phase = .looking ∨
      (s.handSent memberId userId send outcome now).phase = .waiting true ∨
      (s.handSent memberId userId send outcome now).phase = .stopped := by
  unfold HandSender.handSent
  split
  · exact .inr (.inr rfl)
  · split
    · exact .inl rfl
    · exact .inl rfl
    · exact .inl rfl
    · exact .inr (.inl rfl)
    · exact .inr (.inl rfl)
    · exact .inr (.inr rfl)

/-- An attempt starts with a look, as `hand_step` asks for it. -/
theorem sending_step {a : Action} {send : HandSend}
    (h : step graphemes memberId userId s a = some t) (flies : t.phase = .sending send) :
    s.phase = .sending send ∨ a = .look ∧ s.reactions.handStep s.current = some send := by
  cases a with
  | request up now =>
      cases h
      unfold HandSender.request at flies
      dsimp only at flies
      split_ifs at flies
      · exact .inl flies
      · exact .inl flies
      · exact .inl flies
  | moved event =>
      simp only [step] at h
      split_ifs at h
      cases h
      exact .inl flies
  | room move => cases move <;> (cases h; try exact .inl flies)
  | mark =>
      simp only [step] at h
      split_ifs at h
      cases h
      cases flies
  | look =>
      simp only [step] at h
      split_ifs at h
      cases h
      unfold HandSender.look at flies
      split at flies
      · next asked =>
          cases flies
          exact .inr ⟨rfl, asked⟩
      · cases flies
  | answered outcome now =>
      simp only [step] at h
      split at h
      · next sent _ =>
          cases h
          rcases @phase_handSent memberId userId s sent outcome now with idle | idle | idle <;>
            cases flies.symm.trans idle
      · cases h
  | wake =>
      simp only [step] at h
      split at h
      · split_ifs at h
        · cases h
          cases flies
        · cases h
          cases flies
      · cases h
  | leave =>
      simp only [step] at h
      split_ifs at h
      cases h
      exact .inl flies

end

section
variable (graphemes : String → List String) (memberId userId : String)

/-- In every run of a participation, an attempt at an annotation starts with a look that finds the
hand wanted, and goes back to a raise that was asked while the hand was down: from then to the
look the hand has been wanted, standing or being raised. -/
theorem annotation_raised {call : CallState} {config : ReactionsConfig} {event : String}
    {as : List Action} {t : HandSender} {on : String} {replacing : Option String}
    (h : run (step graphemes memberId userId) (.start call config event) as = some t)
    (flies : t.phase = .sending (.annotate on replacing)) :
    ∃ before now between after u v w x,
      as = before ++ .request true now :: between ++ .look :: after ∧
      run (step graphemes memberId userId) (.start call config event) before = some u ∧
      ¬Engaged u ∧ step graphemes memberId userId u (.request true now) = some v ∧
      Always (step graphemes memberId userId) Engaged v between ∧
      run (step graphemes memberId userId) v between = some w ∧ w.wanted = true ∧
      step graphemes memberId userId w .look = some x ∧
      Always (step graphemes memberId userId)
        (fun s => s.phase = .sending (.annotate on replacing)) x after := by
  have fresh : ¬Engaged (.start call config event) := by
    rintro (raised | stands | ⟨_, _, flies⟩)
    · cases raised
    · cases stands
    · cases flies
  -- The attempt under way goes back to its look, and the look to a raise.
  obtain ⟨before', a, after, w, x, rfl, reached, idle, taken, attempt⟩ :=
    run_since (P := fun s => s.phase = .sending (.annotate on replacing))
      (fun flies => by cases flies) h flies
  obtain ⟨rfl, asked⟩ := (sending_step taken attempt.start).resolve_left idle
  have wanted : w.wanted = true := (handStep_some asked).2.1 on replacing rfl
  obtain ⟨before, b, between, u, v, rfl, down, low, raise, since⟩ :=
    run_since fresh reached (.inl wanted)
  obtain ⟨now, rfl⟩ := (engaged_step raise since.start).resolve_left low
  rw [run_append_eq down, run_cons] at reached
  obtain ⟨v', raise', rest⟩ := reached
  cases raise.symm.trans raise'
  exact ⟨before, now, between, after, u, v, w, x, rfl, down, low, raise, since, rest, wanted, taken,
    attempt⟩

/-- In every run of a participation, while we are joined: whatever annotation landed is where
the hand stands, or was redacted, or was asked once to be; once the last request is settled,
whoever waits for any of them is answered, a lowered hand has left no annotation that was not
redacted or asked once to be, and a raised one stands unless its last annotation was reported
redacted; and a sender that waits for a change, with none to see, has settled the last request and
left the hand standing on our membership event as it was asked to, with the same exception. -/
theorem hand_stands {call : CallState} {config : ReactionsConfig} {event : String}
    {as : List Action} {t : HandSender} {current : String}
    (h : run (step graphemes memberId userId) (.start call config event) as = some t)
    (joined : t.current = some current) :
    (∀ eventId ∈ t.landed, eventId ∈ t.undone ∨
        ∃ hand, t.own = some hand ∧ hand.reactionEventId = eventId) ∧
      (t.Settled → (∀ request ≤ t.reactions.handRequests.latest,
          (handAnswer t.reactions.handRequests request).isSome) ∧
        (t.wanted = false → ∀ eventId ∈ t.landed, eventId ∈ t.undone) ∧
        (t.wanted = true → t.own.isSome ∨ t.TakenDown)) ∧
      (t.phase = .waiting false → t.unseen = false → t.Settled ∧ t.StandsOn current) := by
  have k : Kept t :=
    run_invariant_of_step (fun _ _ _ k taken => kept_step k taken) (kept_start call config event) h
  have is_joined : t.current.isSome := Option.isSome_of_eq_some joined
  refine ⟨k.accounted, fun settled => ⟨settled.answered, fun lowered eventId there => ?_,
    fun raised => ?_⟩, ?_⟩
  · have down := (k.down is_joined settled lowered).1
    rcases k.accounted eventId there with undone | ⟨hand, stands, -⟩
    · exact undone
    · rw [down] at stands
      cases stands
  · exact (k.up is_joined settled raised).1
  · intro waiting quiet
    exact k.waits waiting quiet current joined

end

/-! A hand that is raised and lowered again, with a refresh of our membership between. -/

def raising : List Action := [.request true 1, .mark, .look]

def raisedAndLowered : List Action :=
  raising ++ [.answered (.ok (some "$h")) 2, .mark, .look, .moved "$n", .wake, .mark, .look,
    .answered (.ok (some "$i")) 3, .request false 4, .mark, .look, .answered (.ok none) 5, .mark,
    .look, .wake, .mark, .look]

def handStart : HandSender := .start (.new []) .default "$m"

theorem raising_runs : (run (step (fun s => [s]) "m" "@u") handStart raising).isSome := by
  decide +kernel

theorem raisedAndLowered_runs :
    (run (step (fun s => [s]) "m" "@u") handStart raisedAndLowered).isSome := by decide +kernel

theorem annotation_raised_first :
    ∃ before now between after u v w x,
      raising = before ++ .request true now :: between ++ .look :: after ∧
      run (step (fun s => [s]) "m" "@u") handStart before = some u ∧ ¬Engaged u ∧
      step (fun s => [s]) "m" "@u" u (.request true now) = some v ∧
      Always (step (fun s => [s]) "m" "@u") Engaged v between ∧
      run (step (fun s => [s]) "m" "@u") v between = some w ∧ w.wanted = true ∧
      step (fun s => [s]) "m" "@u" w .look = some x ∧
      Always (step (fun s => [s]) "m" "@u")
        (fun s => s.phase = .sending (.annotate "$m" none)) x after :=
  @annotation_raised (fun s => [s]) "m" "@u" _ _ _ _ _ "$m" none
    (Option.some_get raising_runs).symm (by decide +kernel)

/-- The room once the hand is down again. -/
def loweredAgain : HandSender :=
  (run (step (fun s => [s]) "m" "@u") handStart raisedAndLowered).get raisedAndLowered_runs

theorem hand_stands_lowered :
    (∀ eventId ∈ loweredAgain.landed, eventId ∈ loweredAgain.undone ∨
        ∃ hand, loweredAgain.own = some hand ∧ hand.reactionEventId = eventId) ∧
      loweredAgain.landed = ["$i", "$h"] ∧ loweredAgain.undone = ["$i", "$h"] ∧
      loweredAgain.phase = .waiting false ∧ loweredAgain.unseen = false :=
  ⟨(hand_stands (fun s => [s]) "m" "@u" (Option.some_get raisedAndLowered_runs).symm
      (show loweredAgain.current = some "$n" by decide +kernel)).1,
    by decide +kernel, by decide +kernel, by decide +kernel, by decide +kernel⟩

end MatrixRtc.HandSenders

import Mathlib.Data.List.Sort
import Mathlib.Data.String.Basic
import MatrixRtc.DirectCalls
import MatrixRtc.HostAnswers
import MatrixRtc.Tables

/-!
# Reactions and raised hands

What the events of a call's reactions say, and what one session keeps of them: the raised
hands, each member's last reaction and known membership events, and where our own hand is and
is wanted. The state never sends: what it asks to be sent is returned, and what became of it is
told. Grapheme clusters are what `graphemes` takes them to be.
-/
namespace MatrixRtc.RaisedHands
open MemberEvents HostAnswers JsonValues Tables DirectCalls

/-- `REACTION_EVENT_TYPE`. -/
def reactionEventType : String := "io.element.call.reaction"

/-- `ANNOTATION_EVENT_TYPE`. -/
def annotationEventType : String := "m.reaction"

/-- `ANNOTATION_RELATION_TYPE`. -/
def annotationRelationType : String := "m.annotation"

/-- `RAISED_HAND_KEY`: the hand, and the selector of its emoji presentation. -/
def raisedHandKey : String := "🖐️"

/-- `DEFAULT_REACTION_ACTIVE_MS`. -/
def defaultReactionActiveMs : ℕ := 3000

/-- `DEFAULT_REACTION_MAX_AGE_MS`. -/
def defaultReactionMaxAgeMs : ℕ := 10000

/-- `KNOWN_MEMBERSHIP_EVENTS_PER_MEMBER`. -/
def knownMembershipEventsPerMember : ℕ := 8

structure ReactionKind where
  name : String
  emoji : String
  sound : Option String
deriving DecidableEq, Repr

/-- `KNOWN_REACTIONS`. -/
def knownReactions : List ReactionKind :=
  [⟨"thumbsup", "👍", none⟩,
    ⟨"party", "🎉", some "party"⟩,
    ⟨"clapping", "👏", some "clap"⟩,
    ⟨"dog", "🐶", some "dog"⟩,
    ⟨"cat", "🐱", some "cat"⟩,
    ⟨"lightbulb", "💡", some "lightbulb"⟩,
    ⟨"crickets", "🦗", some "crickets"⟩,
    ⟨"thumbsdown", "👎", none⟩,
    ⟨"dizzy", "😵‍💫", none⟩,
    ⟨"ok", "👌", none⟩,
    ⟨"heart", "🥰", none⟩,
    ⟨"laugh", "😄", none⟩,
    ⟨"deer", "🦌", some "deer"⟩,
    ⟨"rock", "🤘", some "rock"⟩,
    ⟨"wave", "👋", some "wave"⟩,
    ⟨"drum", "🥁", some "baduntss"⟩,
    ⟨"bell", "🛎️", some "bell"⟩]

def reactionKind (name : String) : Option ReactionKind :=
  knownReactions.find? (·.name == name)

inductive ReactionSound where
  | named (asset : String)
  | generic
deriving DecidableEq, Repr

def soundFor (name : String) : ReactionSound :=
  match (reactionKind name).bind (·.sound) with
  | some sound => .named sound
  | none => .generic

/-- The white space of Unicode, which `str::trim` strips. -/
def isWhitespace (c : Char) : Bool :=
  let n := c.toNat
  9 ≤ n && n ≤ 13 || n == 32 || n == 133 || n == 160 || n == 5760 ||
    8192 ≤ n && n ≤ 8202 || n == 8232 || n == 8233 || n == 8239 || n == 8287 || n == 12288

def trim (s : String) : String :=
  String.ofList (((s.toList.dropWhile isWhitespace).reverse.dropWhile isWhitespace).reverse)

/-- `first_grapheme`. -/
def firstGrapheme (graphemes : String → List String) (emoji : String) : String :=
  (graphemes (trim emoji)).head?.getD ""

structure ReactionsConfig where
  enabled : Bool
  activeWindowMs : ℕ
  sendCooldownMs : ℕ
  maxAgeMs : ℕ
deriving DecidableEq, Repr

def ReactionsConfig.default : ReactionsConfig :=
  ⟨true, defaultReactionActiveMs, defaultReactionActiveMs, defaultReactionMaxAgeMs⟩

def buildReactionContent (membershipEventId emoji name : String) : Json :=
  .obj
    [("m.relates_to", .obj
      [("rel_type", .str "m.reference"), ("event_id", .str membershipEventId)]),
    ("emoji", .str emoji), ("name", .str name)]

def buildRaisedHandContent (membershipEventId : String) : Json :=
  .obj
    [("m.relates_to", .obj
      [("rel_type", .str annotationRelationType), ("event_id", .str membershipEventId),
        ("key", .str raisedHandKey)])]

inductive ParsedTimelineEvent where
  | reaction (target emoji name : String)
  | raisedHand (target : String)
  | irrelevant
deriving DecidableEq, Repr

def parseTimelineEvent (graphemes : String → List String) (event : RawTimelineEvent) :
    ParsedTimelineEvent :=
  let relation := event.content.get "m.relates_to"
  let relType := (relation.bind (·.get "rel_type")).bind (·.asStr)
  let target := (relation.bind (·.get "event_id")).bind (·.asStr)
  if event.eventType = reactionEventType then
    match target with
    | none => .irrelevant
    | some target =>
        if relType ≠ some "m.reference" then .irrelevant
        else
          let sent := (event.content.get "emoji").bind (·.asStr)
          let emoji := (sent.map (firstGrapheme graphemes)).getD ""
          if emoji = "" then .irrelevant
          else .reaction target emoji (((event.content.get "name").bind (·.asStr)).getD "")
  else if event.eventType = annotationEventType then
    let key := (relation.bind (·.get "key")).bind (·.asStr)
    match target with
    | none => .irrelevant
    | some target =>
        if relType = some annotationRelationType ∧ key = some raisedHandKey then .raisedHand target
        else .irrelevant
  else .irrelevant

structure RaisedHand where
  memberId : String
  sender : String
  reactionEventId : String
  raisedAtMs : ℕ
  fromBackfill : Bool
deriving DecidableEq, Repr

structure ReceivedReaction where
  memberId : String
  sender : String
  emoji : String
  name : String
  sound : ReactionSound
deriving DecidableEq, Repr

structure RelationLookup where
  memberId : String
  membershipEventId : String
deriving DecidableEq, Repr

inductive ReactionError where
  | disabled
  | notJoined
  | noSession
  | cooldown (remainingMs : ℕ)
  | emptyEmoji
  | notSent
  | command (error : CommandError)
deriving DecidableEq

/-- The text of a command's error. -/
def errorText : CommandError → String
  | .clientRejected reason => "command rejected by client: " ++ reason
  | .serializationError reason => "failed to serialize event content: " ++ reason
  | .invalidRoomId => "invalid room ID"
  | .invalidEventType found => "invalid event type: " ++ found
  | .backend error => "failed to send event: " ++ error.message
  | .schedulingError reason => "failed to schedule delayed event: " ++ reason
  | .cancelError reason => "failed to cancel delayed event: " ++ reason
  | .delayedEventsNotSupported reason =>
      "delayed events not supported by the homeserver: " ++ reason

structure HandRefusal where
  backend : Option BackendError
  message : String
deriving DecidableEq

namespace HandRefusal

def new (error : CommandError) : HandRefusal := ⟨error.backendError, errorText error⟩

def toError (refusal : HandRefusal) : ReactionError :=
  .command (match refusal.backend with
    | some error => .backend error
    | none => .backend (.new refusal.message))

end HandRefusal

structure HandRequests where
  latest : ℕ
  settled : ℕ
  refused : Option (ℕ × HandRefusal)
deriving DecidableEq

inductive HandSend where
  | annotate (on : String) (replacing : Option String)
  | redact (eventId : String)
deriving DecidableEq, Repr

/-- What `wait_for_hand` returns for the requests as they are, or `none` where it waits on. -/
def handAnswer (requests : HandRequests) (request : ℕ) : Option (Except ReactionError Unit) :=
  let settled := if request < requests.latest ∨ request ≤ requests.settled then some (.ok ())
    else none
  match requests.refused with
  | some (refused, refusal) => if refused = request then some (.error refusal.toError) else settled
  | none => settled

theorem handAnswer_isSome {requests : HandRequests} {request : ℕ} :
    (handAnswer requests request).isSome ↔ request < requests.latest ∨
      request ≤ requests.settled ∨ ∃ refusal, requests.refused = some (request, refusal) := by
  unfold handAnswer
  cases requests.refused with
  | none => simp
  | some refused =>
      obtain ⟨refused, refusal⟩ := refused
      by_cases same : refused = request
      · simp [same]
      · simp [same]

structure OwnRaisedHand where
  reactionEventId : String
  annotatedMembershipEventId : String
deriving DecidableEq, Repr

/-- What one session knows about reactions. The hands as last published, and the reactions
given out, newest last, stand for the channels. -/
structure ReactionsState where
  config : ReactionsConfig
  raisedHands : Table String RaisedHand
  published : List RaisedHand
  reactions : List ReceivedReaction
  lastReactionAt : Table String ℕ
  knownMembershipEvents : Table String (List String)
  relationsFetched : List String
  lastSentMs : Option ℕ
  ownRaisedHand : Option OwnRaisedHand
  handWanted : Bool
  handRequests : HandRequests

namespace ReactionsState

variable (s : ReactionsState)

def new : ReactionsState :=
  { config := .default, raisedHands := ∅, published := [], reactions := [], lastReactionAt := ∅
    knownMembershipEvents := ∅, relationsFetched := [], lastSentMs := none, ownRaisedHand := none
    handWanted := false, handRequests := ⟨0, 0, none⟩ }

def configure (config : ReactionsConfig) : ReactionsState := { s with config := config }

/-- `raised_hands`: oldest first, by member id where they are of one age. -/
def handsInOrder : List RaisedHand :=
  (s.raisedHands.entries.map (·.2)).insertionSort fun x y =>
    x.raisedAtMs < y.raisedAtMs ∨ x.raisedAtMs = y.raisedAtMs ∧ x.memberId ≤ y.memberId

def publishRaisedHands : ReactionsState := { s with published := s.handsInOrder }

/-- The known events of a member whose membership event is `eventId` now. -/
def rememberEvent (known : List String) (eventId : String) : List String :=
  if known.getLast? = some eventId then known
  else
    let known := known.filter (· != eventId) ++ [eventId]
    if knownMembershipEventsPerMember < known.length then known.drop 1 else known

def rememberMember (known : Table String (List String)) (member : JoinedMembership) :
    Table String (List String) :=
  match member.membershipEventId with
  | none => known
  | some eventId =>
      known.insert member.memberId
        (rememberEvent ((known.lookup member.memberId).getD []) eventId)

def syncRoster (members : List JoinedMembership) : ReactionsState :=
  let present := fun memberId => members.any (·.memberId == memberId)
  let hands := retain s.raisedHands fun memberId _ => present memberId
  let known := retain s.knownMembershipEvents fun memberId _ => present memberId
  let s' := { s with
    raisedHands := hands
    lastReactionAt := retain s.lastReactionAt fun memberId _ => present memberId
    knownMembershipEvents := members.foldl rememberMember known }
  if hands.entries.length ≠ s.raisedHands.entries.length then s'.publishRaisedHands else s'

/-- Whether `target` is a membership event of the member. -/
def isEventOf (target : String) (member : JoinedMembership) : Bool :=
  member.membershipEventId == some target ||
    ((s.knownMembershipEvents.lookup member.memberId).getD []).contains target

/-- `resolve_target`: the first member that `target` is an event of, if it sent the event. -/
def resolveTarget (target : String) (event : RawTimelineEvent)
    (members : List JoinedMembership) : Option JoinedMembership :=
  match members.find? (s.isEventOf target) with
  | none => none
  | some member => if member.sender = event.sender then some member else none

/-- A reaction of a member, seen live. -/
def ingestReaction (event : RawTimelineEvent) (member : JoinedMembership) (emoji name : String)
    (now : ℕ) : ReactionsState :=
  if s.config.maxAgeMs < now - event.originServerTs then s
  else if (s.lastReactionAt.lookup member.memberId).any fun last =>
      decide (now - last < s.config.activeWindowMs) then s
  else
    { s with
      lastReactionAt := s.lastReactionAt.insert member.memberId now
      reactions := s.reactions ++
        [{ memberId := member.memberId
           sender := member.sender
           emoji := ((reactionKind name).map (·.emoji)).getD emoji
           name := name
           sound := soundFor name }] }

/-- Two annotations of one member: when it asked first, and the event a redaction would name. -/
def mergeHands (existing hand : RaisedHand) : RaisedHand :=
  let newest := if existing.raisedAtMs ≤ hand.raisedAtMs then hand else existing
  { newest with
    raisedAtMs := min existing.raisedAtMs hand.raisedAtMs
    fromBackfill := existing.fromBackfill }

/-- A raised hand of a member. -/
def ingestHand (event : RawTimelineEvent) (member : JoinedMembership) (backfill : Bool) :
    ReactionsState :=
  let hand : RaisedHand :=
    { memberId := member.memberId
      sender := member.sender
      reactionEventId := event.eventId
      raisedAtMs := event.originServerTs
      fromBackfill := backfill }
  match s.raisedHands.lookup member.memberId with
  | some existing =>
      if existing.reactionEventId = hand.reactionEventId then s
      else publishRaisedHands { s with
        raisedHands := s.raisedHands.insert member.memberId (mergeHands existing hand) }
  | none =>
      publishRaisedHands { s with raisedHands := s.raisedHands.insert member.memberId hand }

/-- `ingest`: of the events of a backfill, only raised hands are taken. -/
def ingest (graphemes : String → List String) (event : RawTimelineEvent)
    (members : List JoinedMembership) (backfill : Bool) (now : ℕ) : ReactionsState :=
  if !s.config.enabled then s
  else
    match parseTimelineEvent graphemes event with
    | .irrelevant => s
    | .reaction target emoji name =>
        if backfill then s
        else
          match s.resolveTarget target event members with
          | none => s
          | some member => s.ingestReaction event member emoji name now
    | .raisedHand target =>
        match s.resolveTarget target event members with
        | none => s
        | some member => s.ingestHand event member backfill

/-- `on_event_redacted`: whichever hand the event raised is lowered, and ours is forgotten. -/
def onEventRedacted (eventId : String) : ReactionsState :=
  let kept := retain s.raisedHands fun _ hand => hand.reactionEventId != eventId
  let s' := { s with
    raisedHands := kept
    ownRaisedHand := s.ownRaisedHand.filter (·.reactionEventId != eventId) }
  if kept.entries.length ≠ s.raisedHands.entries.length then s'.publishRaisedHands else s'

def onRelationsReceived (graphemes : String → List String) (target : String)
    (events : List RawTimelineEvent) (members : List JoinedMembership) (now : ℕ) :
    ReactionsState :=
  events.foldl (fun s event => s.ingest graphemes event members true now)
    { s with relationsFetched := s.relationsFetched.insert target }

/-- `pending_relation_lookups`, our own membership left out. -/
def pendingRelationLookups (members : List JoinedMembership) (ownMemberId : Option String) :
    List RelationLookup :=
  if !s.config.enabled then []
  else
    (members.filter fun member => some member.memberId != ownMemberId).filterMap fun member =>
      match member.membershipEventId with
      | none => none
      | some eventId =>
          if s.relationsFetched.contains eventId then none else some ⟨member.memberId, eventId⟩

def checkSendAllowed (now : ℕ) : Except ReactionError Unit :=
  if !s.config.enabled then .error .disabled
  else
    match s.lastSentMs with
    | none => .ok ()
    | some last =>
        if now - last < s.config.sendCooldownMs then
          .error (.cooldown (s.config.sendCooldownMs - (now - last)))
        else .ok ()

def recordSent (now : ℕ) : ReactionsState := { s with lastSentMs := some now }

/-- `show_own_hand`: it is shown where it was asked to be. -/
def showOwnHand (ownMemberId ownUserId : String) (now : ℕ) : ReactionsState :=
  let shown := s.raisedHands.lookup ownMemberId
  if s.handWanted then
    let hand : RaisedHand :=
      { memberId := ownMemberId
        sender := ownUserId
        reactionEventId := (s.ownRaisedHand.map (·.reactionEventId)).getD ""
        raisedAtMs := (shown.map (·.raisedAtMs)).getD now
        fromBackfill := false }
    if shown = some hand then s
    else publishRaisedHands { s with raisedHands := s.raisedHands.insert ownMemberId hand }
  else if shown = none then s
  else publishRaisedHands { s with raisedHands := s.raisedHands.erase ownMemberId }

/-- `request_hand`, and the request to wait on. -/
def requestHand (up : Bool) (ownMemberId ownUserId : String) (now : ℕ) : ReactionsState × ℕ :=
  if up = s.handWanted then (s, s.handRequests.latest)
  else
    let s' := { s with handWanted := up }.showOwnHand ownMemberId ownUserId now
    let latest := s'.handRequests.latest + 1
    ({ s' with handRequests := { s'.handRequests with latest := latest } }, latest)

/-- `hand_step`. -/
def handStep (membershipEventId : Option String) : Option HandSend :=
  match membershipEventId with
  | none => none
  | some current =>
      match s.ownRaisedHand, s.handWanted with
      | none, true => some (.annotate current none)
      | some hand, true =>
          if hand.annotatedMembershipEventId ≠ current then
            some (.annotate current (some hand.reactionEventId))
          else none
      | some hand, false => some (.redact hand.reactionEventId)
      | none, false => none

/-- `settle_hand`. -/
def settleHand : ReactionsState :=
  { s with handRequests := { s.handRequests with settled := s.handRequests.latest } }

def handRaised (ownMemberId ownUserId reactionEventId membershipEventId : String) (now : ℕ) :
    ReactionsState :=
  { s with ownRaisedHand := some ⟨reactionEventId, membershipEventId⟩ }.showOwnHand ownMemberId
    ownUserId now

def handLowered (ownMemberId ownUserId : String) (now : ℕ) : ReactionsState :=
  { s with ownRaisedHand := none }.showOwnHand ownMemberId ownUserId now

/-- `refuse_hand`. -/
def refuseHand (ownMemberId ownUserId : String) (error : CommandError) (now : ℕ) :
    ReactionsState :=
  let s' := { s with handWanted := s.ownRaisedHand.isSome }.showOwnHand ownMemberId ownUserId now
  let latest := s'.handRequests.latest
  { s' with handRequests := ⟨latest, latest, some (latest, .new error)⟩ }

def resetOwn : ReactionsState :=
  { s with ownRaisedHand := none, handWanted := false, lastSentMs := none }.settleHand

end ReactionsState

end MatrixRtc.RaisedHands

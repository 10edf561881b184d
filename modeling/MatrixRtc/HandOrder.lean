import MatrixRtc.CallRooms
import MatrixRtc.RunningMerges

/-!
# The order raised hands arrive in

A peer's hand keeps one stamp for two purposes: when the peer asked, and which annotation a
redaction will name. Here is what the hand of one member is after any deliveries of its
annotations, and exactly when it names the newest.
-/
namespace MatrixRtc.HandOrder
open MemberEvents JsonValues Tables DirectCalls RaisedHands CallRooms RunningMerges
open RaisedHands.ReactionsState CallRooms.CallState

variable {graphemes : String → List String} {memberId : String}

/-- When the hand of a member was raised, and the annotation it stands on. -/
def handOf (s : CallState) (memberId : String) : Option (ℕ × String) :=
  (s.reactions.raisedHands.lookup memberId).map fun hand => (hand.raisedAtMs, hand.reactionEventId)

def stampOf (event : RawTimelineEvent) : ℕ × String := (event.originServerTs, event.eventId)

/-- Whether the event raises the hand of the member, on a membership event of it the session
knows. -/
def raisesHandOf (graphemes : String → List String) (memberId : String) (s : CallState)
    (event : RawTimelineEvent) : Bool :=
  match parseTimelineEvent graphemes event with
  | .raisedHand target =>
      (s.reactions.resolveTarget target event s.members).any (·.memberId == memberId)
  | _ => false

/-- The annotations of the member in one move, as they come. -/
def heardOf (graphemes : String → List String) (memberId : String) (s : CallState) :
    RoomMove → List RawTimelineEvent
  | .timeline events _ => events.filter (raisesHandOf graphemes memberId s)
  | .relations _ events _ => events.filter (raisesHandOf graphemes memberId s)
  | _ => []

/-- The annotations of the member in all moves, as they come. -/
def heard (graphemes : String → List String) (memberId : String) :
    CallState → List RoomMove → List RawTimelineEvent
  | _, [] => []
  | s, move :: moves =>
      heardOf graphemes memberId s move ++
        heard graphemes memberId (s.apply graphemes move) moves

/-- The member stays a peer: it is in each roster, and our own moves are another member's. -/
def Stays (memberId : String) : RoomMove → Prop
  | .roster members => members.any (·.memberId == memberId)
  | .own own _ _ move => own ≠ memberId ∧ ∀ config, move = .joined config → config.enabled
  | _ => True

/-- The hand shows when its member first asked, and the newest of the annotations, whose
redaction lowers it. -/
def ShowsNewest (s : CallState) (memberId : String) (events : List RawTimelineEvent) : Prop :=
  ∃ oldest ∈ events, (∀ e ∈ events, oldest.originServerTs ≤ e.originServerTs) ∧
    ∃ newest ∈ events, (∀ e ∈ events, e.originServerTs ≤ newest.originServerTs) ∧
      handOf s memberId = some (oldest.originServerTs, newest.eventId) ∧
      (s.reactions.onEventRedacted newest.eventId).raisedHands.lookup memberId = none

theorem raisesHandOf_congr {s t : CallState} (same : SameRoom s t) :
    raisesHandOf graphemes memberId t = raisesHandOf graphemes memberId s := by
  funext event
  simp only [raisesHandOf, resolveTarget_congr same]

/-- The hand of a member after a hand of that or another member came. -/
theorem handOf_ingestHand (s : CallState) (event : RawTimelineEvent) (member : JoinedMembership)
    (backfill : Bool) :
    handOf { s with reactions := s.reactions.ingestHand event member backfill } memberId =
      if member.memberId = memberId then merge (handOf s memberId) (stampOf event)
      else handOf s memberId := by
  by_cases own : member.memberId = memberId
  · subst own
    rw [if_pos rfl]
    cases there : s.reactions.raisedHands.lookup member.memberId with
    | none => simp [handOf, ingestHand, there, publishRaisedHands, merge, stampOf]
    | some existing =>
        by_cases again : existing.reactionEventId = event.eventId
        · simp [handOf, ingestHand, there, again, merge, stampOf]
        · simp only [handOf, ingestHand, there, again, publishRaisedHands, mergeHands,
            AList.lookup_insert, Option.map_some, merge, stampOf, if_false]
          split <;> rfl
  · rw [if_neg own]
    have apart : memberId ≠ member.memberId := Ne.symm own
    cases there : s.reactions.raisedHands.lookup member.memberId with
    | none => simp [handOf, ingestHand, there, publishRaisedHands, AList.lookup_insert_ne apart]
    | some existing =>
        by_cases again : existing.reactionEventId = event.eventId
        · simp [handOf, ingestHand, there, again]
        · simp [handOf, ingestHand, there, again, publishRaisedHands,
            AList.lookup_insert_ne apart]

/-- One event merges into the hand of the member it raises it for, and into no other. -/
theorem handOf_ingest (s : CallState) (enabled : s.reactions.config.enabled) (backfill : Bool)
    (now : ℕ) (event : RawTimelineEvent) :
    handOf (s.ingest graphemes backfill now event) memberId =
      if raisesHandOf graphemes memberId s event then merge (handOf s memberId) (stampOf event)
      else handOf s memberId := by
  unfold CallState.ingest ReactionsState.ingest raisesHandOf
  simp only [enabled, Bool.not_true, Bool.false_eq_true, if_false]
  cases parseTimelineEvent graphemes event with
  | irrelevant => simp
  | reaction target emoji name =>
      cases backfill with
      | true => simp
      | false =>
          cases found : s.reactions.resolveTarget target event s.members with
          | none => simp [found]
          | some member =>
              obtain ⟨-, -, hands⟩ :=
                ingestReaction_frame s.reactions event member emoji name now
              simp [found, handOf, hands]
  | raisedHand target =>
      cases found : s.reactions.resolveTarget target event s.members with
      | none => simp [found]
      | some member =>
          simp only [found, Option.any_some, beq_iff_eq]
          exact handOf_ingestHand s event member backfill

theorem handOf_foldl (backfill : Bool) (now : ℕ) (events : List RawTimelineEvent) (s : CallState)
    (enabled : s.reactions.config.enabled) :
    handOf (events.foldl (ingest graphemes backfill now) s) memberId =
      ((events.filter (raisesHandOf graphemes memberId s)).map stampOf).foldl merge
        (handOf s memberId) := by
  induction events generalizing s with
  | nil => rfl
  | cons event events ih =>
      have same := @sameRoom_ingest graphemes s backfill now event
      rw [List.foldl_cons, ih _ (same.config ▸ enabled), raisesHandOf_congr same,
        handOf_ingest s enabled]
      by_cases raises : raisesHandOf graphemes memberId s event <;> simp [raises]

theorem handOf_redacted (s : CallState) (eventId : String) :
    handOf (s.apply graphemes (.redacted eventId)) memberId =
      (handOf s memberId).filter (·.2 != eventId) := by
  rw [handOf, CallState.apply]
  dsimp only
  rw [(onEventRedacted_hands s.reactions eventId).1 memberId, handOf, Option.filter_map]
  rfl

theorem handOf_roster (s : CallState) {members : List JoinedMembership}
    (stays : members.any (·.memberId == memberId)) :
    handOf (s.syncRoster members) memberId = handOf s memberId := by
  rw [handOf, CallState.syncRoster, (syncRoster_tables s.reactions members).1 memberId, handOf]
  exact congrArg _ (if_pos stays)

/-- One move merges the annotations it brings, and a redaction that names the hand aside
changes nothing else of it. -/
theorem handOf_apply (s : CallState) (enabled : s.reactions.config.enabled) {move : RoomMove}
    (stays : Stays memberId move)
    (kept : ∀ eventId, move = .redacted eventId → ∀ x ∈ handOf s memberId, x.2 ≠ eventId) :
    (s.apply graphemes move).reactions.config.enabled ∧
      handOf (s.apply graphemes move) memberId =
        ((heardOf graphemes memberId s move).map stampOf).foldl merge (handOf s memberId) := by
  cases move with
  | roster members =>
      refine ⟨?_, handOf_roster s stays⟩
      obtain ⟨-, -, -, config, -⟩ := syncRoster_tables s.reactions members
      exact (congrArg _ config).trans enabled
  | timeline events now =>
      exact ⟨(sameRoom_foldl false now events s).config ▸ enabled,
        handOf_foldl false now events s enabled⟩
  | relations target events now =>
      rw [apply_relations]
      refine ⟨?_, handOf_foldl true now events _ enabled⟩
      rw [(sameRoom_foldl true now events _).config]
      exact enabled
  | redacted eventId =>
      refine ⟨?_, ?_⟩
      · obtain ⟨-, config, -⟩ := onEventRedacted_hands s.reactions eventId
        exact (congrArg _ config).trans enabled
      · rw [handOf_redacted]
        cases there : handOf s memberId with
        | none => rfl
        | some x => simp [heardOf, Option.filter, kept eventId rfl x there]
  | own own userId now move =>
      refine ⟨?_, congrArg _ (lookup_ownMove stays.1 move)⟩
      rcases config_ownMove s.reactions own userId now move with same | ⟨config, joined, same⟩
      · exact (congrArg _ same).trans enabled
      · exact (congrArg _ same).trans (stays.2 config joined)

/-- The name merged in is one of the entries', or was there. -/
theorem merged_name {entries : List (ℕ × String)} {start : Option (ℕ × String)}
    {x : ℕ × String} (h : entries.foldl merge start = some x) :
    (∃ y ∈ entries, x.2 = y.2) ∨ ∃ y ∈ start, x.2 = y.2 := by
  induction entries generalizing start with
  | nil => exact .inr ⟨x, h, rfl⟩
  | cons entry entries ih =>
      rcases ih h with ⟨y, hy, same⟩ | ⟨y, hy, same⟩
      · exact .inl ⟨y, List.mem_cons_of_mem _ hy, same⟩
      · cases start with
        | none =>
            cases hy
            exact .inl ⟨entry, List.mem_cons_self, same⟩
        | some z =>
            simp only [merge] at hy
            split at hy
            · cases hy
              exact .inr ⟨z, rfl, same⟩
            · cases hy
              split at same
              · exact .inl ⟨entry, List.mem_cons_self, same⟩
              · exact .inr ⟨z, rfl, same⟩

/-- The hand at the end of a run in which the member stays and no redaction names it. -/
theorem handOf_afterMoves {moves : List RoomMove} {s : CallState}
    (enabled : s.reactions.config.enabled) (stays : ∀ move ∈ moves, Stays memberId move)
    (kept : ∀ eventId, .redacted eventId ∈ moves →
      (∀ e ∈ heard graphemes memberId s moves, e.eventId ≠ eventId) ∧
        ∀ x ∈ handOf s memberId, x.2 ≠ eventId) :
    handOf (s.afterMoves graphemes moves) memberId =
      ((heard graphemes memberId s moves).map stampOf).foldl merge (handOf s memberId) := by
  induction moves generalizing s with
  | nil => rfl
  | cons move moves ih =>
      obtain ⟨enabled', hand⟩ := @handOf_apply graphemes memberId s enabled move
        (stays move List.mem_cons_self)
        fun eventId redacts => (kept eventId (redacts ▸ List.mem_cons_self)).2
      have later := ih enabled' (fun m hm => stays m (List.mem_cons_of_mem _ hm))
        fun eventId redacts => by
          obtain ⟨others, now_⟩ := kept eventId (List.mem_cons_of_mem _ redacts)
          refine ⟨fun e he => others e (List.mem_append_right _ he), fun x hx => ?_⟩
          rw [hand] at hx
          rcases merged_name hx with ⟨y, hy, same⟩ | ⟨y, hy, same⟩
          · obtain ⟨e, he, rfl⟩ := List.mem_map.mp hy
            exact same ▸ others e (List.mem_append_left _ he)
          · exact same ▸ now_ y hy
      rw [heard, List.map_append, List.foldl_append, ← hand]
      exact later

/-- Exactly where, since the newest of the annotations came last, each was older than all before
it, the hand shows the time of the oldest and the redaction of the newest lowers it. -/
theorem hand_showsNewest_iff (graphemes : String → List String) (memberId : String)
    (s : CallState) (moves : List RoomMove) (enabled : s.reactions.config.enabled)
    (down : s.reactions.raisedHands.lookup memberId = none)
    (stays : ∀ move ∈ moves, Stays memberId move)
    (kept : ∀ eventId, .redacted eventId ∈ moves →
      ∀ e ∈ heard graphemes memberId s moves, e.eventId ≠ eventId)
    (some_ : heard graphemes memberId s moves ≠ [])
    (distinct : ∀ x ∈ heard graphemes memberId s moves,
      ∀ y ∈ heard graphemes memberId s moves,
        x.eventId = y.eventId ↔ x.originServerTs = y.originServerTs) :
    ShowsNewest (s.afterMoves graphemes moves) memberId (heard graphemes memberId s moves) ↔
      NewestLast ((heard graphemes memberId s moves).map stampOf) := by
  have fresh : handOf s memberId = none := by rw [handOf, down]; rfl
  have hand := handOf_afterMoves enabled stays fun eventId redacts =>
    ⟨kept eventId redacts, by simp [fresh]⟩
  rw [fresh] at hand
  have one : Consistent ((heard graphemes memberId s moves).map stampOf) := by
    intro x hx y hy
    obtain ⟨e, he, rfl⟩ := List.mem_map.mp hx
    obtain ⟨f, hf, rfl⟩ := List.mem_map.mp hy
    exact distinct e he f hf
  obtain ⟨least, name, merged, keeps⟩ := kept_foldl one (by simpa using some_)
  rw [merged] at hand
  obtain ⟨_, there, rfl⟩ := keeps.least_mem
  obtain ⟨oldest, oldest_mem, rfl⟩ := List.mem_map.mp there
  have low : ∀ e ∈ heard graphemes memberId s moves, oldest.originServerTs ≤ e.originServerTs :=
    fun e he => keeps.least_le _ (List.mem_map_of_mem he)
  constructor
  · rintro ⟨_, -, -, newest, newest_mem, top, shown, -⟩
    have top' : ∀ x ∈ (heard graphemes memberId s moves).map stampOf,
        x.1 ≤ (stampOf newest).1 := by
      intro x hx
      obtain ⟨e, he, rfl⟩ := List.mem_map.mp hx
      exact top e he
    rw [hand] at shown
    exact (keeps.named_newest_iff one (List.mem_map_of_mem newest_mem) top').mp
      (congrArg Prod.snd (Option.some.inj shown))
  · intro last
    have ⟨before, newest', after, split, top, _⟩ := last
    have newest_mem' : newest' ∈ (heard graphemes memberId s moves).map stampOf := by simp [split]
    have name_eq := (keeps.named_newest_iff one newest_mem' top).mpr last
    obtain ⟨newest, newest_mem, rfl⟩ := List.mem_map.mp newest_mem'
    refine ⟨oldest, oldest_mem, low, newest, newest_mem,
      fun e he => top _ (List.mem_map_of_mem he), ?_, ?_⟩
    · rw [hand, name_eq]
      rfl
    · have gone := @handOf_redacted graphemes memberId (s.afterMoves graphemes moves)
        newest.eventId
      rw [hand, name_eq] at gone
      simpa [handOf, stampOf, Option.filter, CallState.apply] using gone

def peer (memberId eventId sender : String) : JoinedMembership where
  roomId := "!r:x"
  slotId := "m.call#ROOM"
  sender := sender
  origin := .unknown
  stickyKey := memberId
  memberId := memberId
  membershipEventId := some eventId
  membershipTs := none
  originServerTs := none
  application := ⟨some "m.call", []⟩
  transports := []
  canSubscribe := []

def annotation (eventId sender target : String) (ts : ℕ) : RawTimelineEvent where
  roomId := "!r:x"
  eventId := eventId
  sender := sender
  origin := .unknown
  eventType := annotationEventType
  originServerTs := ts
  content := buildRaisedHandContent target

/-- A slot with one peer. -/
def onePeer : CallState := .new [peer "p" "$m" "@p:x"]

/-- Three annotations of the peer, on its membership event. -/
def asked : RawTimelineEvent := annotation "$a" "@p:x" "$m" 1
def askedAgain : RawTimelineEvent := annotation "$b" "@p:x" "$m" 2
def askedLast : RawTimelineEvent := annotation "$c" "@p:x" "$m" 3

/-- The backfill brings the second after the third was seen live. -/
def secondLate : List RoomMove :=
  [.timeline [asked, askedLast] 5, .relations "$m" [asked, askedAgain] 6]

theorem heard_secondLate :
    heard (fun _ => []) "p" onePeer secondLate = [asked, askedLast, asked, askedAgain] := by
  decide

/-- The hand stands on the second annotation, and the redaction of the third leaves it up. -/
theorem secondLate_not_newest :
    (∀ move ∈ secondLate, Stays "p" move) ∧
      (∀ x ∈ heard (fun _ => []) "p" onePeer secondLate,
        ∀ y ∈ heard (fun _ => []) "p" onePeer secondLate,
          x.eventId = y.eventId ↔ x.originServerTs = y.originServerTs) ∧
      ¬ShowsNewest (onePeer.afterMoves (fun _ => []) secondLate) "p"
        (heard (fun _ => []) "p" onePeer secondLate) := by
  refine ⟨by simp [secondLate, Stays], by rw [heard_secondLate]; decide, ?_⟩
  rintro ⟨_, -, -, newest, there, top, hand, -⟩
  rw [heard_secondLate] at there top
  have shown : handOf (onePeer.afterMoves (fun _ => []) secondLate) "p" = some (1, "$b") := by
    decide
  have latest : (3 : ℕ) ≤ newest.originServerTs := top askedLast (by simp)
  rw [shown] at hand
  have named : "$b" = newest.eventId := congrArg Prod.snd (Option.some.inj hand)
  simp only [List.mem_cons, List.not_mem_nil, or_false] at there
  rcases there with rfl | rfl | rfl | rfl
  · exact absurd latest (by decide)
  · exact absurd named (by decide)
  · exact absurd latest (by decide)
  · exact absurd latest (by decide)

/-- Live as they were sent, and the oldest once more by a backfill before the last. -/
def inOrder : List RoomMove :=
  [.timeline [asked] 5, .relations "$m" [asked] 6, .timeline [askedAgain, askedLast] 7]

theorem heard_inOrder :
    heard (fun _ => []) "p" onePeer inOrder = [asked, asked, askedAgain, askedLast] := by
  decide

theorem hand_showsNewest_inOrder :
    ShowsNewest (onePeer.afterMoves (fun _ => []) inOrder) "p"
      (heard (fun _ => []) "p" onePeer inOrder) := by
  refine (hand_showsNewest_iff (fun _ => []) "p" onePeer inOrder rfl (by decide) ?_ ?_ ?_ ?_).mpr ?_
  · simp [inOrder, Stays]
  · simp [inOrder]
  · simp [heard_inOrder]
  · rw [heard_inOrder]
    decide
  · rw [heard_inOrder]
    exact ⟨[asked, asked, askedAgain].map stampOf, stampOf askedLast, [], rfl, by decide,
      .nil _ _⟩

end MatrixRtc.HandOrder

import MatrixRtc.FedSlots
import MatrixRtc.StepRuns

/-!
# The subscription to one room

The loop that keeps a room's feeder supplied: it reads every subject of the room, hands each
over whole, and waits for the room to change, a failed read being tried again. The room
changes at any time, also while it is being read; the client announces a change on one of two
broadcast channels, which the loop may fall behind on. What the reads, the channels and the
timers do next is left open. The time that passes is not part of the state.
-/
namespace MatrixRtc.RoomSubscriptions
open StepRuns MemberEvents MemberIngest RoomSlots BaseRooms RoomFeeder FedSlots

/-- What the reads of a room see. -/
structure RoomView where
  encrypted : Bool
  /-- the state on the homeserver -/
  state : List EventIn
  /-- the state that the SDK's store keeps -/
  stored : List EventIn
  joined : List String
  live : List EventIn
deriving DecidableEq

inductive Subject where
  | encryption
  | state (eventType : String)
  | members
  | sticky
deriving DecidableEq, Repr

def subjectOf : RoomInput → Option Subject
  | .encryption _ => some .encryption
  | .state eventType _ => some (.state eventType)
  | .members _ => some .members
  | .sticky _ => some .sticky
  | .holdsEnded | .joined .. | .left _ | .observed _ => none

/-- One read of the loop. One fetch answers every type the store does not hold. -/
inductive Read where
  | encryption
  | store (eventType : String)
  | fetch (eventTypes : List String)
  | members
  | sticky
deriving DecidableEq, Repr

def Read.subjects : Read → List Subject
  | .encryption => [.encryption]
  | .store eventType => [.state eventType]
  | .fetch eventTypes => eventTypes.map .state
  | .members => [.members]
  | .sticky => [.sticky]

section
variable (heldByStore : String → Bool) (stateEventTypes : List String)

/-- The set of a subject as it is handed over; the store's are given the type asked for. -/
def RoomView.report (room : RoomView) : Subject → RoomInput
  | .encryption => .encryption room.encrypted
  | .state eventType =>
      .state eventType
        (if heldByStore eventType then
          room.stored.map fun event => { event with eventType := eventType }
        else room.state.filter fun event => event.eventType == eventType)
  | .members => .members room.joined
  | .sticky => .sticky room.live

/-- The reads of `emit_room_subjects`, in its order. -/
def reads : List Read :=
  let fetched := stateEventTypes.filter fun eventType => !heldByStore eventType
  .encryption :: (stateEventTypes.filter heldByStore).map .store ++
    (if fetched.isEmpty then [] else [.fetch fetched]) ++ [.members, .sticky]

inductive RecvResult where
  | received
  | lagged
  | closed
deriving DecidableEq, Repr

/-- `keep_going`: a lagged receiver still means that something changed. -/
def keepGoing : RecvResult → Bool
  | .received | .lagged => true
  | .closed => false

/-- A receiver of a broadcast channel. -/
structure Receiver where
  unread : ℕ
  lagged : Bool
  closed : Bool
deriving DecidableEq, Repr

/-- What is sent to a receiver that is behind by the whole channel drops its oldest. -/
def Receiver.send (capacity : ℕ) (r : Receiver) : Receiver :=
  if r.unread < capacity then { r with unread := r.unread + 1 } else { r with lagged := true }

def Receiver.recv (r : Receiver) : Option (RecvResult × Receiver) :=
  if r.lagged then some (.lagged, { r with lagged := false })
  else if 0 < r.unread then some (.received, { r with unread := r.unread - 1 })
  else if r.closed then some (.closed, r)
  else none

inductive Phase where
  /-- reads what is left of a round; the first may have been answered -/
  | emitting (rest : List Read) (answer : Option RoomView) (allRead : Bool)
  | selecting (allRead : Bool)
  | debouncing
  | stopped
deriving DecidableEq

/-- The round goes on, or the loop waits. -/
def Phase.after (rest : List Read) (allRead : Bool) : Phase :=
  match rest with
  | [] => .selecting allRead
  | _ :: _ => .emitting rest none allRead

/-- The room as the client sees it, the loop, and what its sink was handed. -/
structure RoomSubscription where
  room : RoomView
  /-- the room changed and no channel has said so yet -/
  unannounced : Bool
  sticky : Receiver
  updates : Receiver
  phase : Phase
  sink : List RoomInput
  /-- the types whose last read of the store failed -/
  misread : List String
deriving DecidableEq

inductive SubscriptionAction where
  | changed (room : RoomView)
  | announced (onSticky : Bool)
  | senderGone (ofSticky : Bool)
  | cancelled
  /-- the first read left is answered with what the room is now -/
  | answered
  /-- the answer arrives, or the read failed -/
  | read (ok : Bool)
  | received (onSticky : Bool)
  | retried
  | debounced
deriving DecidableEq

/-- The action is the loop's own. -/
def ofLoop : SubscriptionAction → Bool
  | .answered | .read _ | .received _ | .retried | .debounced => true
  | .changed _ | .announced _ | .senderGone _ | .cancelled => false

namespace RoomSubscription

def start (room : RoomView) : RoomSubscription :=
  { room := room
    unannounced := false
    sticky := ⟨0, false, false⟩
    updates := ⟨0, false, false⟩
    phase := .emitting (reads heldByStore stateEventTypes) none true
    sink := []
    misread := [] }

/-- The sink is handed the sets of a read, all from one answer. -/
def handOver (s : RoomSubscription) (read : Read) (answer : RoomView) : RoomSubscription :=
  { s with
    sink := s.sink ++ read.subjects.map (answer.report heldByStore)
    misread :=
      match read with
      | .store eventType => s.misread.filter fun other => other != eventType
      | .encryption | .fetch _ | .members | .sticky => s.misread }

/-- What follows a read. A failed one is skipped and noted for the retry, but a failed read of
the store is handed over as an empty set. -/
def finish (s : RoomSubscription) (read : Read) (rest : List Read) (answer : Option RoomView)
    (allRead ok : Bool) : Option RoomSubscription :=
  match read, ok, answer with
  | .sticky, true, _ =>
      some { s.handOver heldByStore .sticky s.room with phase := .after rest allRead }
  | .sticky, false, _ => none
  | read, true, some room =>
      some { s.handOver heldByStore read room with phase := .after rest allRead }
  | _, true, none => none
  | .store eventType, false, _ =>
      some
        { s with
          sink := s.sink ++ [.state eventType []]
          misread := eventType :: s.misread
          phase := .after rest allRead }
  | .encryption, false, _ | .fetch _, false, _ | .members, false, _ =>
      some { s with phase := .after rest false }

def receive (s : RoomSubscription) (onSticky : Bool) : Option RoomSubscription :=
  if onSticky then
    s.sticky.recv.map fun (result, receiver) =>
      { s with sticky := receiver, phase := if keepGoing result then .debouncing else .stopped }
  else
    s.updates.recv.map fun (result, receiver) =>
      { s with updates := receiver, phase := if keepGoing result then .debouncing else .stopped }

/-- One step; `capacity` is that of the channels. -/
def step (capacity : ℕ) (s : RoomSubscription) : SubscriptionAction → Option RoomSubscription
  | .changed room => some { s with room := room, unannounced := true }
  | .announced true => some { s with unannounced := false, sticky := s.sticky.send capacity }
  | .announced false => some { s with unannounced := false, updates := s.updates.send capacity }
  | .senderGone true => some { s with sticky.closed := true }
  | .senderGone false => some { s with updates.closed := true }
  | .cancelled => some { s with phase := .stopped }
  | .answered =>
      match s.phase with
      | .emitting rest _ allRead => some { s with phase := .emitting rest (some s.room) allRead }
      | .selecting _ | .debouncing | .stopped => none
  | .read ok =>
      match s.phase with
      | .emitting (read :: rest) answer allRead =>
          s.finish heldByStore read rest answer allRead ok
      | .emitting [] .. | .selecting _ | .debouncing | .stopped => none
  | .received onSticky =>
      match s.phase with
      | .selecting _ => s.receive onSticky
      | .emitting .. | .debouncing | .stopped => none
  | .retried =>
      match s.phase with
      | .selecting false => some { s with phase := .debouncing }
      | .selecting true | .emitting .. | .debouncing | .stopped => none
  | .debounced =>
      match s.phase with
      | .debouncing =>
          some { s with phase := .emitting (reads heldByStore stateEventTypes) none true }
      | .emitting .. | .selecting _ | .stopped => none

end RoomSubscription

end

def lastTold (subject : Subject) (told : List RoomInput) : Option RoomInput :=
  (told.filter fun input => subjectOf input == some subject).getLast?

section Told
variable {heldByStore : String → Bool} {told : List RoomInput} {subject : Subject}
  {room : RoomView}

@[simp] theorem subjectOf_report : subjectOf (room.report heldByStore subject) = some subject := by
  cases subject <;> rfl

theorem lastTold_concat {input : RoomInput} :
    lastTold subject (told ++ [input]) =
      if subjectOf input = some subject then some input else lastTold subject told := by
  unfold lastTold
  rw [getLast?_filter_concat]
  simp only [beq_iff_eq]

theorem lastTold_reports (subjects : List Subject) :
    lastTold subject (told ++ subjects.map (room.report heldByStore)) =
      if subject ∈ subjects then some (room.report heldByStore subject)
      else lastTold subject told := by
  induction subjects using List.reverseRecOn with
  | nil => simp
  | append_singleton subjects last ih =>
      rw [List.map_append, ← List.append_assoc, List.map_singleton, lastTold_concat, ih,
        subjectOf_report]
      by_cases same : last = subject
      · simp [same]
      · have other : subject ≠ last := fun is => same is.symm
        simp [same, other]

end Told

section Steps
variable {heldByStore : String → Bool} {stateEventTypes : List String} {capacity : ℕ}
  {s t : RoomSubscription}

/-- A step of the loop's own. -/
inductive LoopStep (heldByStore : String → Bool) (stateEventTypes : List String)
    (s : RoomSubscription) : RoomSubscription → Prop where
  | answered {rest : List Read} {answer : Option RoomView} {allRead : Bool}
      (phase : s.phase = .emitting rest answer allRead) :
      LoopStep heldByStore stateEventTypes s
        { s with phase := .emitting rest (some s.room) allRead }
  | read {read : Read} {rest : List Read} {answer : Option RoomView} {allRead ok : Bool}
      {t : RoomSubscription} (phase : s.phase = .emitting (read :: rest) answer allRead)
      (finished : s.finish heldByStore read rest answer allRead ok = some t) :
      LoopStep heldByStore stateEventTypes s t
  | received {allRead onSticky : Bool} {t : RoomSubscription}
      (phase : s.phase = .selecting allRead) (received : s.receive onSticky = some t) :
      LoopStep heldByStore stateEventTypes s t
  | retried (phase : s.phase = .selecting false) :
      LoopStep heldByStore stateEventTypes s { s with phase := .debouncing }
  | debounced (phase : s.phase = .debouncing) :
      LoopStep heldByStore stateEventTypes s
        { s with phase := .emitting (reads heldByStore stateEventTypes) none true }

theorem loopStep {a : SubscriptionAction} (own : ofLoop a = true)
    (hstep : s.step heldByStore stateEventTypes capacity a = some t) :
    LoopStep heldByStore stateEventTypes s t := by
  cases a with
  | changed | announced | senderGone | cancelled => cases own
  | answered =>
      simp only [RoomSubscription.step] at hstep
      split at hstep
      case h_1 phase =>
        cases hstep
        exact .answered phase
      all_goals cases hstep
  | read ok =>
      simp only [RoomSubscription.step] at hstep
      split at hstep
      case h_1 phase => exact .read phase hstep
      all_goals cases hstep
  | received onSticky =>
      simp only [RoomSubscription.step] at hstep
      split at hstep
      case h_1 phase => exact .received phase hstep
      all_goals cases hstep
  | retried =>
      simp only [RoomSubscription.step] at hstep
      split at hstep
      case h_1 phase =>
        cases hstep
        exact .retried phase
      all_goals cases hstep
  | debounced =>
      simp only [RoomSubscription.step] at hstep
      split at hstep
      case h_1 phase =>
        cases hstep
        exact .debounced phase
      all_goals cases hstep

/-- A read hands over what it was answered with, or an empty set, or nothing. -/
theorem finish_cases {read : Read} {rest : List Read} {answer : Option RoomView}
    {allRead ok : Bool} (hstep : s.finish heldByStore read rest answer allRead ok = some t) :
    (∃ room, (room = s.room ∨ answer = some room) ∧
      t = { s.handOver heldByStore read room with phase := .after rest allRead }) ∨
    (∃ eventType, read = .store eventType ∧
      t =
        { s with
          sink := s.sink ++ [.state eventType []]
          misread := eventType :: s.misread
          phase := .after rest allRead }) ∨
    t = { s with phase := .after rest false } := by
  unfold RoomSubscription.finish at hstep
  split at hstep
  case h_1 =>
    cases hstep
    exact .inl ⟨s.room, .inl rfl, rfl⟩
  case h_3 room _ =>
    cases hstep
    exact .inl ⟨room, .inr rfl, rfl⟩
  case h_5 eventType =>
    cases hstep
    exact .inr (.inl ⟨eventType, rfl, rfl⟩)
  all_goals
    cases hstep
    try exact .inr (.inr rfl)

/-- What is received only ends the waiting. -/
theorem receive_cases {onSticky : Bool} (hstep : s.receive onSticky = some t) :
    ∃ sticky updates phase, (phase = .debouncing ∨ phase = .stopped) ∧
      t = { s with sticky := sticky, updates := updates, phase := phase } := by
  have idle (result : RecvResult) :
      (if keepGoing result then Phase.debouncing else .stopped) = .debouncing ∨
        (if keepGoing result then Phase.debouncing else .stopped) = .stopped := by
    cases result
    · exact .inl rfl
    · exact .inl rfl
    · exact .inr rfl
  unfold RoomSubscription.receive at hstep
  split_ifs at hstep
  · obtain ⟨received, -, rfl⟩ := Option.map_eq_some_iff.mp hstep
    exact ⟨received.2, s.updates, _, idle received.1, rfl⟩
  · obtain ⟨received, -, rfl⟩ := Option.map_eq_some_iff.mp hstep
    exact ⟨s.sticky, received.2, _, idle received.1, rfl⟩

end Steps

/-- There is something to receive. -/
def Receiver.ready (r : Receiver) : Bool := r.lagged || 0 < r.unread

/-- The room changed since the loop was last woken for it. -/
def RoomSubscription.woken (s : RoomSubscription) : Bool :=
  s.unannounced || s.sticky.ready || s.updates.ready

section Fresh
variable {heldByStore : String → Bool} {stateEventTypes : List String} {capacity : ℕ}
  {s t : RoomSubscription}

/-- Every subject asked for. -/
def subjects (heldByStore : String → Bool) (stateEventTypes : List String) : List Subject :=
  (reads heldByStore stateEventTypes).flatMap Read.subjects

/-- The last set handed over for the subject is the room's, unless its read failed unnoticed. -/
def Told (heldByStore : String → Bool) (s : RoomSubscription) (subject : Subject) : Prop :=
  (∀ eventType ∈ s.misread, subject ≠ .state eventType) →
    lastTold subject s.sink = some (s.room.report heldByStore subject)

/-- Everything but what is left to read has been handed over. -/
def Done (heldByStore : String → Bool) (stateEventTypes : List String) (s : RoomSubscription)
    (rest : List Read) : Prop :=
  ∀ subject ∈ subjects heldByStore stateEventTypes, subject ∉ rest.flatMap Read.subjects →
    Told heldByStore s subject

/-- What was read in this round is still what the room has. -/
def Current (heldByStore : String → Bool) (stateEventTypes : List String) (s : RoomSubscription) :
    Prop :=
  match s.phase with
  | .emitting rest answer allRead =>
      (∀ room ∈ answer, room = s.room) ∧
        (allRead = true → Done heldByStore stateEventTypes s rest)
  | .selecting allRead => allRead = true → Done heldByStore stateEventTypes s []
  | .debouncing | .stopped => True

def Fresh (heldByStore : String → Bool) (stateEventTypes : List String) (s : RoomSubscription) :
    Prop :=
  s.woken = false → Current heldByStore stateEventTypes s

theorem current_after {rest : List Read} {allRead : Bool}
    (h : allRead = true → Done heldByStore stateEventTypes s rest) :
    Current heldByStore stateEventTypes { s with phase := .after rest allRead } := by
  cases rest with
  | nil => exact h
  | cons read rest => exact ⟨fun _ is => (by cases is), h⟩

theorem done_handOver {read : Read} {rest : List Read}
    (h : Done heldByStore stateEventTypes s (read :: rest)) :
    Done heldByStore stateEventTypes (s.handOver heldByStore read s.room) rest := by
  intro subject asked not_left read_well
  change lastTold subject (s.sink ++ read.subjects.map (s.room.report heldByStore)) = _
  rw [lastTold_reports]
  split_ifs with now
  · rfl
  · refine h subject asked ?_ fun eventType failed is => ?_
    · rw [List.flatMap_cons, List.mem_append, not_or]
      exact ⟨now, not_left⟩
    · refine read_well eventType ?_ is
      cases read with
      | store other =>
          refine List.mem_filter.mpr ⟨failed, bne_iff_ne.mpr ?_⟩
          rintro rfl
          exact now (List.mem_singleton.mpr is)
      | encryption | fetch | members | sticky => exact failed

theorem done_misread {eventType : String} {rest : List Read}
    (h : Done heldByStore stateEventTypes s (.store eventType :: rest)) :
    Done heldByStore stateEventTypes
      { s with sink := s.sink ++ [.state eventType []], misread := eventType :: s.misread }
      rest := by
  intro subject asked not_left read_well
  have other : subject ≠ .state eventType := read_well eventType List.mem_cons_self
  change lastTold subject (s.sink ++ [.state eventType []]) = _
  rw [lastTold_concat, subjectOf, if_neg fun is => other (Option.some.inj is).symm]
  refine h subject asked ?_ fun failed there => read_well failed (List.mem_cons_of_mem _ there)
  rw [List.flatMap_cons, List.mem_append, not_or]
  exact ⟨fun there => other (List.mem_singleton.mp there), not_left⟩

theorem finish_woken {read : Read} {rest : List Read} {answer : Option RoomView}
    {allRead ok : Bool} (hstep : s.finish heldByStore read rest answer allRead ok = some t) :
    t.woken = s.woken := by
  obtain ⟨room, -, rfl⟩ | ⟨eventType, -, rfl⟩ | rfl := finish_cases hstep
  · rfl
  · rfl
  · rfl

theorem finish_current {read : Read} {rest : List Read} {answer : Option RoomView}
    {allRead ok : Bool} (answered : ∀ room ∈ answer, room = s.room)
    (h : allRead = true → Done heldByStore stateEventTypes s (read :: rest))
    (hstep : s.finish heldByStore read rest answer allRead ok = some t) :
    Current heldByStore stateEventTypes t := by
  obtain ⟨room, was, rfl⟩ | ⟨eventType, rfl, rfl⟩ | rfl := finish_cases hstep
  · have now : room = s.room := was.elim id fun is => answered room is
    rw [now]
    exact current_after fun all => done_handOver (h all)
  · exact current_after fun all => done_misread (h all)
  · exact current_after fun all => by cases all

theorem receive_current {onSticky : Bool} (hstep : s.receive onSticky = some t) :
    Current heldByStore stateEventTypes t := by
  obtain ⟨sticky, updates, phase, rfl | rfl, rfl⟩ := receive_cases hstep
  · trivial
  · trivial

theorem ready_send (r : Receiver) : (r.send capacity).ready = true := by
  unfold Receiver.send Receiver.ready
  split_ifs
  · simp
  · rfl

theorem step_fresh {a : SubscriptionAction} (h : Fresh heldByStore stateEventTypes s)
    (hstep : s.step heldByStore stateEventTypes capacity a = some t) :
    Fresh heldByStore stateEventTypes t := by
  intro quiet
  cases own : ofLoop a with
  | false =>
      cases a with
      | changed room =>
          cases hstep
          cases quiet
      | announced onSticky =>
          cases onSticky with
          | true =>
              cases hstep
              simp [RoomSubscription.woken, ready_send] at quiet
          | false =>
              cases hstep
              simp [RoomSubscription.woken, ready_send] at quiet
      | senderGone ofSticky => cases ofSticky <;> (cases hstep; exact h quiet)
      | cancelled =>
          cases hstep
          trivial
      | answered | read | received | retried | debounced => cases own
  | true =>
      cases loopStep own hstep with
      | answered phase =>
          have current := h quiet
          rw [Current, phase] at current
          exact ⟨fun room is => (Option.some.inj is).symm, current.2⟩
      | read phase finished =>
          have current := h ((finish_woken finished).symm.trans quiet)
          rw [Current, phase] at current
          exact finish_current current.1 current.2 finished
      | received _ received => exact receive_current received
      | retried => trivial
      | debounced =>
          exact ⟨fun _ is => (by cases is), fun _ subject asked left => absurd asked left⟩

theorem start_fresh {room : RoomView} :
    Fresh heldByStore stateEventTypes (.start heldByStore stateEventTypes room) :=
  fun _ => ⟨fun _ is => (by cases is), fun _ _ asked left => absurd asked left⟩

theorem run_fresh {room : RoomView} {trace : List SubscriptionAction}
    (hrun : run (RoomSubscription.step heldByStore stateEventTypes capacity)
      (.start heldByStore stateEventTypes room) trace = some s) :
    Fresh heldByStore stateEventTypes s :=
  run_invariant_of_step (I := fun s => Fresh heldByStore stateEventTypes s)
    (fun _ _ _ h hstep => step_fresh h hstep) start_fresh hrun

/-- The loop has nothing left to do and is not stopped. -/
def AtRest (heldByStore : String → Bool) (stateEventTypes : List String) (capacity : ℕ)
    (s : RoomSubscription) : Prop :=
  s.phase ≠ .stopped ∧
    ∀ a, ofLoop a = true → s.step heldByStore stateEventTypes capacity a = none

theorem not_ready {r : Receiver} (h : r.recv = none) : r.ready = false := by
  unfold Receiver.recv at h
  split_ifs at h with lagged unread closed
  simp [Receiver.ready, lagged, unread]

/-- A loop at rest has read everything and waits for a channel. -/
theorem atRest_iff : AtRest heldByStore stateEventTypes capacity s ↔
    s.phase = .selecting true ∧ s.sticky.recv = none ∧ s.updates.recv = none := by
  constructor
  · rintro ⟨alive, none_⟩
    cases phase : s.phase with
    | stopped => exact absurd phase alive
    | emitting rest answer allRead =>
        have step := none_ .answered rfl
        simp only [RoomSubscription.step, phase] at step
        cases step
    | debouncing =>
        have step := none_ .debounced rfl
        simp only [RoomSubscription.step, phase] at step
        cases step
    | selecting allRead =>
        cases allRead with
        | false =>
            have step := none_ .retried rfl
            simp only [RoomSubscription.step, phase] at step
            cases step
        | true =>
            have onSticky := none_ (.received true) rfl
            have onUpdates := none_ (.received false) rfl
            simp only [RoomSubscription.step, phase, RoomSubscription.receive, if_pos,
              Bool.false_eq_true, if_false, Option.map_eq_none_iff] at onSticky onUpdates
            exact ⟨rfl, onSticky, onUpdates⟩
  · rintro ⟨phase, onSticky, onUpdates⟩
    have alive : s.phase ≠ .stopped := by
      rw [phase]
      exact fun stopped => by cases stopped
    refine ⟨alive, fun a own => ?_⟩
    cases a with
    | changed | announced | senderGone | cancelled => cases own
    | answered | read | retried | debounced => simp only [RoomSubscription.step, phase]
    | received ofSticky =>
        cases ofSticky <;>
          simp [RoomSubscription.step, phase, RoomSubscription.receive, onSticky, onUpdates]

theorem told_at_rest {room : RoomView} {trace : List SubscriptionAction}
    (hrun : run (RoomSubscription.step heldByStore stateEventTypes capacity)
      (.start heldByStore stateEventTypes room) trace = some s)
    (rest : AtRest heldByStore stateEventTypes capacity s) (announced : s.unannounced = false) :
    ∀ subject ∈ subjects heldByStore stateEventTypes, Told heldByStore s subject := by
  obtain ⟨phase, onSticky, onUpdates⟩ := atRest_iff.mp rest
  have quiet : s.woken = false := by
    rw [RoomSubscription.woken, announced, not_ready onSticky, not_ready onUpdates]
    rfl
  have current := run_fresh hrun quiet
  rw [Current, phase] at current
  exact fun subject asked => current rfl subject asked (by simp)

end Fresh

section Whole
variable {heldByStore : String → Bool} {stateEventTypes : List String} {capacity : ℕ}
  {P : RoomView → Prop} {s t : RoomSubscription}

/-- A whole set of a room there was, or the empty one of a failed read of the store. -/
def Whole (heldByStore : String → Bool) (P : RoomView → Prop) (input : RoomInput) : Prop :=
  (∃ room, P room ∧ ∃ subject, input = room.report heldByStore subject) ∨
    ∃ eventType, heldByStore eventType = true ∧ input = .state eventType []

/-- Everything read and handed over is of a room there was. -/
structure Kept (heldByStore : String → Bool) (P : RoomView → Prop) (s : RoomSubscription) :
    Prop where
  room : P s.room
  sink : ∀ input ∈ s.sink, Whole heldByStore P input
  misread : ∀ eventType ∈ s.misread, heldByStore eventType = true
  reading : ∀ rest answer allRead, s.phase = .emitting rest answer allRead →
    (∀ room ∈ answer, P room) ∧
      ∀ eventType, .store eventType ∈ rest → heldByStore eventType = true

theorem store_mem_reads {eventType : String}
    (h : .store eventType ∈ reads heldByStore stateEventTypes) : heldByStore eventType = true := by
  simp only [reads, List.cons_append, List.mem_cons, List.mem_append, List.mem_map,
    List.mem_filter] at h
  rcases h with is | (⟨other, ⟨-, held⟩, is⟩ | there) | is | is | is
  · cases is
  · cases is
    exact held
  · split_ifs at there
    · cases there
    · cases List.mem_singleton.mp there
  · cases is
  · cases is
  · cases is

theorem Kept.idle (h : Kept heldByStore P s) {phase : Phase}
    (idle : ∀ rest answer allRead, phase ≠ .emitting rest answer allRead) :
    Kept heldByStore P { s with phase := phase } where
  room := h.room
  sink := h.sink
  misread := h.misread
  reading := fun rest answer allRead is => absurd is (idle rest answer allRead)

theorem Kept.after (h : Kept heldByStore P s) {rest : List Read} {allRead : Bool}
    (stores : ∀ eventType, .store eventType ∈ rest → heldByStore eventType = true) :
    Kept heldByStore P { s with phase := .after rest allRead } where
  room := h.room
  sink := h.sink
  misread := h.misread
  reading := by
    intro rest' answer allRead' is
    cases rest with
    | nil => cases is
    | cons read rest =>
        cases is
        exact ⟨fun _ is => (by cases is), stores⟩

theorem Kept.handOver (h : Kept heldByStore P s) {room : RoomView} (was : P room) (read : Read) :
    Kept heldByStore P (s.handOver heldByStore read room) where
  room := h.room
  sink := by
    intro input there
    rcases List.mem_append.mp there with before | now
    · exact h.sink input before
    · obtain ⟨subject, -, rfl⟩ := List.mem_map.mp now
      exact .inl ⟨room, was, subject, rfl⟩
  misread := by
    intro eventType failed
    cases read with
    | store other => exact h.misread eventType (List.mem_filter.mp failed).1
    | encryption | fetch | members | sticky => exact h.misread eventType failed
  reading := h.reading

theorem finish_kept (h : Kept heldByStore P s) {read : Read} {rest : List Read}
    {answer : Option RoomView} {allRead ok : Bool} (answered : ∀ room ∈ answer, P room)
    (stores : ∀ eventType, .store eventType ∈ read :: rest → heldByStore eventType = true)
    (hstep : s.finish heldByStore read rest answer allRead ok = some t) :
    Kept heldByStore P t := by
  have later : ∀ eventType, .store eventType ∈ rest → heldByStore eventType = true :=
    fun eventType there => stores eventType (List.mem_cons_of_mem _ there)
  obtain ⟨room, was, rfl⟩ | ⟨eventType, rfl, rfl⟩ | rfl := finish_cases hstep
  · have had : P room := was.elim (fun now => now ▸ h.room) (answered room)
    exact (h.handOver had read).after later
  · refine Kept.after
      (s := { s with sink := s.sink ++ [.state eventType []], misread := eventType :: s.misread })
      ?_ later
    have held : heldByStore eventType = true := stores eventType List.mem_cons_self
    refine ⟨h.room, fun input there => ?_, fun failed there => ?_, h.reading⟩
    · rcases List.mem_append.mp there with before | now
      · exact h.sink input before
      · exact .inr ⟨eventType, held, List.mem_singleton.mp now⟩
    · rcases List.mem_cons.mp there with rfl | before
      · exact held
      · exact h.misread failed before
  · exact h.after later

theorem receive_kept (h : Kept heldByStore P s) {onSticky : Bool}
    (hstep : s.receive onSticky = some t) : Kept heldByStore P t := by
  obtain ⟨sticky, updates, phase, idle, rfl⟩ := receive_cases hstep
  refine Kept.idle (s := { s with sticky := sticky, updates := updates })
    ⟨h.room, h.sink, h.misread, h.reading⟩ fun rest answer allRead is => ?_
  rcases idle with rfl | rfl
  · cases is
  · cases is

theorem step_kept {a : SubscriptionAction} (h : Kept heldByStore P s)
    (changes : ∀ room, a = .changed room → P room)
    (hstep : s.step heldByStore stateEventTypes capacity a = some t) :
    Kept heldByStore P t := by
  cases own : ofLoop a with
  | false =>
      cases a with
      | changed room =>
          cases hstep
          exact ⟨changes room rfl, h.sink, h.misread, h.reading⟩
      | announced onSticky =>
          cases onSticky <;> (cases hstep; exact ⟨h.room, h.sink, h.misread, h.reading⟩)
      | senderGone ofSticky =>
          cases ofSticky <;> (cases hstep; exact ⟨h.room, h.sink, h.misread, h.reading⟩)
      | cancelled =>
          cases hstep
          exact h.idle fun _ _ _ is => by cases is
      | answered | read | received | retried | debounced => cases own
  | true =>
      cases loopStep own hstep with
      | answered phase =>
          refine ⟨h.room, h.sink, h.misread, fun rest answer allRead is => ?_⟩
          cases is
          refine ⟨fun room is => ?_, (h.reading _ _ _ phase).2⟩
          cases is
          exact h.room
      | read phase finished =>
          obtain ⟨answered, stores⟩ := h.reading _ _ _ phase
          exact finish_kept h answered stores finished
      | received _ received => exact receive_kept h received
      | retried => exact h.idle fun _ _ _ is => by cases is
      | debounced =>
          refine ⟨h.room, h.sink, h.misread, fun rest answer allRead is => ?_⟩
          cases is
          exact ⟨fun _ is => (by cases is), fun _ there => store_mem_reads there⟩

theorem run_kept {trace : List SubscriptionAction} (h : Kept heldByStore P s)
    (changes : ∀ room, .changed room ∈ trace → P room)
    (hrun : run (RoomSubscription.step heldByStore stateEventTypes capacity) s trace = some t) :
    Kept heldByStore P t := by
  induction trace generalizing s with
  | nil =>
      cases hrun
      exact h
  | cons a rest ih =>
      obtain ⟨u, first, later⟩ := run_cons.mp hrun
      refine ih (step_kept h (fun room is => ?_) first) (fun room there => ?_) later
      · exact changes room (is ▸ List.mem_cons_self)
      · exact changes room (List.mem_cons_of_mem _ there)

theorem start_kept {room : RoomView} {trace : List SubscriptionAction} :
    Kept heldByStore (fun had => had = room ∨ .changed had ∈ trace)
      (.start heldByStore stateEventTypes room) where
  room := .inl rfl
  sink := fun _ there => absurd there List.not_mem_nil
  misread := fun _ there => absurd there List.not_mem_nil
  reading := by
    intro rest answer allRead is
    cases is
    exact ⟨fun _ is => (by cases is), fun _ there => store_mem_reads there⟩

end Whole

/-- Whatever the room does while its subjects are read, however far the loop falls behind on the
channels and whichever reads fail: every set the sink is handed is a whole one that the room had,
or the empty one of a read of the store that failed; and whenever the loop is at rest with no
change unannounced, the last set it was handed of each subject asked for is the one the room has,
for a type of the store unless its last read failed. -/
theorem no_change_lost (heldByStore : String → Bool) (stateEventTypes : List String)
    (capacity : ℕ) (room : RoomView) (trace : List SubscriptionAction) (s : RoomSubscription)
    (hrun : run (RoomSubscription.step heldByStore stateEventTypes capacity)
      (.start heldByStore stateEventTypes room) trace = some s) :
    (∀ input ∈ s.sink,
      Whole heldByStore (fun had => had = room ∨ .changed had ∈ trace) input) ∧
    (AtRest heldByStore stateEventTypes capacity s → s.unannounced = false →
      ∀ subject ∈ subjects heldByStore stateEventTypes,
        (∀ eventType ∈ s.misread, subject ≠ .state eventType) →
          lastTold subject s.sink = some (s.room.report heldByStore subject)) := by
  refine ⟨?_, fun rest announced => told_at_rest hrun rest announced⟩
  exact (run_kept start_kept (fun _ there => .inr there) hrun).sink

section Concrete

/-- `m.call.member` is the type the store holds. -/
def callMemberHeld (eventType : String) : Bool := eventType == "m.call.member"

/-- A room before and after its slot was opened. -/
def slotless : RoomView :=
  { encrypted := true
    state := []
    stored := []
    joined := ["@alice:x", "@bob:x"]
    live := [] }

def slotted : RoomView :=
  { slotless with
    state :=
      [{ eventId := "$slot"
         sender := "@alice:x"
         eventType := "org.matrix.msc4143.rtc.slot"
         stateKey := some "m.call#room"
         originServerTs := 0
         content := .obj
          [("status", .str "open"), ("application", .obj [("type", .str "m.call")]),
            ("encryption", .obj [("type", .str "m.per_member")])]
         encryption := .cleartext }] }

/-- The slot is opened while the first round reads, whose fetch fails. -/
def openedMeanwhile : List SubscriptionAction :=
  [.answered, .read true, .changed slotted, .read false, .announced false, .answered, .read true,
    .read true, .received false, .debounced, .answered, .read true, .answered, .read true,
    .answered, .read true, .read true]

/-- The slot opened meanwhile is handed over in the second round. -/
theorem no_change_lost_meanwhile :
    ∃ s ∈ run (RoomSubscription.step callMemberHeld slotEventTypes 16)
        (.start callMemberHeld slotEventTypes slotless) openedMeanwhile,
      s.room = slotted ∧
      ∀ subject ∈ subjects callMemberHeld slotEventTypes,
        (∀ eventType ∈ s.misread, subject ≠ .state eventType) →
          lastTold subject s.sink = some (s.room.report callMemberHeld subject) := by
  have facts : ∃ s ∈ run (RoomSubscription.step callMemberHeld slotEventTypes 16)
      (.start callMemberHeld slotEventTypes slotless) openedMeanwhile,
      s.room = slotted ∧ s.unannounced = false ∧ s.phase = .selecting true ∧
        s.sticky.recv = none ∧ s.updates.recv = none := by
    decide
  obtain ⟨s, hs, is_room, announced, rest⟩ := facts
  exact ⟨s, hs, is_room, (no_change_lost callMemberHeld slotEventTypes 16 slotless openedMeanwhile
    s hs).2 (atRest_iff.mpr rest) announced⟩

end Concrete

section Feeder
variable {dialect : IngestDialect} {ownUserId roomId : String} {told : List RoomInput}

/-- What a feeder was told of the room's encryption after a report. -/
def encryptionAfter (before : RoomEncryption) : RoomInput → RoomEncryption
  | .encryption encrypted => if encrypted then .encrypted else .unencrypted
  | .sticky _ | .state .. | .members _ | .holdsEnded | .joined .. | .left _ | .observed _ => before

theorem encryption_step {r t : RoomFeederRun} {now : ℕ} {input : RoomInput}
    (hstep : r.step dialect ownUserId (now, input) = some t) :
    t.room.encryption = encryptionAfter r.room.encryption input := by
  have delivered : (r.deliver dialect ownUserId now input).room.encryption =
      encryptionAfter r.room.encryption input := by
    have applied (u : RoomFeederRun) : (u.applyMembership dialect now).room.encryption =
        u.room.encryption := by
      simp only [RoomFeederRun.applyMembership, BaseRtcRoom.setCurrentStickyState]
      generalize dialect.currentMembership _ _ _ = current
      cases u.room.route (fun _ => none) current <;> rfl
    have read : (r.onInput dialect ownUserId input).room.encryption =
        encryptionAfter r.room.encryption input := by
      cases input with
      | encryption encrypted =>
          simp only [RoomFeederRun.onInput, BaseRtcRoom.onEncryptionReceived, encryptionAfter]
          generalize (if encrypted = true then RoomEncryption.encrypted else .unencrypted) = e
          split_ifs with same
          · rw [BaseRtcRoom.encryption, same]
            rfl
          · rfl
      | state eventType events =>
          simp only [RoomFeederRun.onInput, RoomFeederRun.onState]
          split_ifs <;> rfl
      | members userIds =>
          simp only [RoomFeederRun.onInput, RoomFeederRun.onMembers]
          split_ifs <;> rfl
      | sticky | holdsEnded | joined | left | observed => rfl
    simp only [RoomFeederRun.deliver]
    split_ifs
    · exact (applied _).trans read
    · exact read
  cases input with
  | sticky | state | members | encryption =>
      cases hstep
      exact delivered
  | joined slotId own started =>
      cases hstep
      simp only [BaseRtcRoom.join]
      split_ifs <;> rfl
  | holdsEnded | left | observed =>
      cases hstep
      rfl

theorem fed_run {clocked : List (ℕ × RoomInput)} {r t : RoomFeederRun} (h : Fed roomId r)
    (hrun : run (RoomFeederRun.step dialect ownUserId) r clocked = some t) :
    Fed roomId t ∧
      (∀ stable slotId, held t.slots stable slotId =
        (clocked.map Prod.snd).foldl (heardOf stable slotId) (held r.slots stable slotId)) ∧
      t.seenSlots = (r.seenSlots || (clocked.map Prod.snd).any reportsSlots) ∧
      t.room.encryption = (clocked.map Prod.snd).foldl encryptionAfter r.room.encryption := by
  induction clocked generalizing r with
  | nil =>
      cases hrun
      exact ⟨h, fun _ _ => rfl, (Bool.or_false _).symm, rfl⟩
  | cons a rest ih =>
      obtain ⟨now, input⟩ := a
      obtain ⟨u, first, later⟩ := run_cons.mp hrun
      have heard := reader_step h first
      obtain ⟨fed, holds, seen, encryption⟩ := ih heard.fed later
      refine ⟨fed, fun stable slotId => ?_, ?_, ?_⟩
      · rw [holds, heard.holds]
        rfl
      · rw [seen, heard.seen, Bool.or_assoc]
        rfl
      · rw [encryption, encryption_step first]
        rfl

/-- What the feeder holds of a slot is what the last set of the spelling has. -/
theorem foldl_heardOf {stable : Bool} {slotId : String} {before : Option EventIn} :
    told.foldl (heardOf stable slotId) before =
      (lastTold (.state (typeOf stable)) told).elim before (heardOf stable slotId before) := by
  induction told using List.reverseRecOn with
  | nil => rfl
  | append_singleton told input ih =>
      rw [List.foldl_concat, lastTold_concat, ih]
      split_ifs with same
      · cases input with
        | state eventType events =>
            have type : eventType = typeOf stable := by
              simpa [subjectOf] using same
            simp only [heardOf, if_pos type, Option.elim_some]
        | encryption | members | sticky | holdsEnded | joined | left | observed => cases same
      · cases input with
        | state eventType events =>
            have other : eventType ≠ typeOf stable := by
              simpa [subjectOf] using same
            simp only [heardOf, if_neg other]
        | encryption | members | sticky | holdsEnded | joined | left | observed => rfl

theorem foldl_encryptionAfter {before : RoomEncryption} :
    told.foldl encryptionAfter before =
      (lastTold .encryption told).elim before (encryptionAfter before) := by
  induction told using List.reverseRecOn with
  | nil => rfl
  | append_singleton told input ih =>
      rw [List.foldl_concat, lastTold_concat, ih]
      cases input with
      | encryption encrypted => rfl
      | state | members | sticky | holdsEnded | joined | left | observed => rfl

theorem lastTold_reported {subject : Subject} :
    lastTold subject (told.filter fun input => (subjectOf input).isSome) =
      lastTold subject told := by
  unfold lastTold
  rw [List.filter_filter]
  congr 1
  refine List.filter_congr fun input _ => ?_
  cases is : subjectOf input with
  | none => rfl
  | some other => simp

theorem reportsSlots_of_lastTold {stable : Bool} {input : RoomInput}
    (h : lastTold (.state (typeOf stable)) told = some input) :
    told.any reportsSlots = true := by
  obtain ⟨there, is_subject⟩ := List.mem_filter.mp (List.mem_of_getLast? h)
  refine List.any_eq_true.mpr ⟨input, there, ?_⟩
  cases input with
  | state eventType events =>
      have type : eventType = typeOf stable := by simpa [subjectOf] using is_subject
      rw [reportsSlots, type, spelling_eq_some.mpr rfl]
      rfl
  | encryption | members | sticky | holdsEnded | joined | left | observed => cases is_subject

end Feeder

theorem state_mem_subjects {heldByStore : String → Bool} {stateEventTypes : List String}
    {eventType : String} (asked : eventType ∈ stateEventTypes)
    (fetched : heldByStore eventType = false) :
    .state eventType ∈ subjects heldByStore stateEventTypes := by
  have there : eventType ∈ stateEventTypes.filter fun other => !heldByStore other := by
    rw [List.mem_filter, fetched]
    exact ⟨asked, rfl⟩
  have some_ : (stateEventTypes.filter fun other => !heldByStore other).isEmpty = false := by
    rw [List.isEmpty_eq_false_iff]
    exact List.ne_nil_of_mem there
  refine List.mem_flatMap.mpr ⟨.fetch _, ?_, List.mem_map.mpr ⟨eventType, there, rfl⟩⟩
  simp [reads, some_]

/-- The event of a slot that devices go by: the stable one where there is one. -/
def slotEventOf (room : RoomView) (slotId : String) : Option EventIn :=
  let spelled := fun stable =>
    lastFor slotId (room.state.filter fun event => event.eventType == typeOf stable)
  (spelled true).or (spelled false)

/-- Once the subscription of a room that asks for the slots is at rest with no change unannounced
and the feeder has taken everything it was handed, whatever the application did in between, the
room knows the encryption and every slot as they are on the homeserver, and so does every
session of it, which has no members while its slot is closed. -/
theorem feeder_knows_room (heldByStore : String → Bool) (stateEventTypes : List String)
    (capacity : ℕ) (room : RoomView) (trace : List SubscriptionAction) (s : RoomSubscription)
    (hrun : run (RoomSubscription.step heldByStore stateEventTypes capacity)
      (.start heldByStore stateEventTypes room) trace = some s)
    (asked : ∀ stable, typeOf stable ∈ stateEventTypes)
    (fetched : ∀ stable, heldByStore (typeOf stable) = false)
    (rest : AtRest heldByStore stateEventTypes capacity s) (announced : s.unannounced = false)
    (dialect : IngestDialect) (ownUserId roomId : String) (clocked : List (ℕ × RoomInput))
    (r : RoomFeederRun)
    (taken : (clocked.map Prod.snd).filter (fun input => (subjectOf input).isSome) = s.sink)
    (fed : run (RoomFeederRun.step dialect ownUserId) (.start roomId) clocked = some r) :
    r.room.encryption = (if s.room.encrypted then .encrypted else .unencrypted) ∧
    ∀ slotId, ∃ state, r.room.slotState slotId = some state ∧
      state = ((slotEventOf s.room slotId).map fun event =>
        (slotEvent roomId slotId event).resolve r.room.encryption).getD .closed ∧
      ∀ session, r.room.sessions slotId = some session →
        session.slot = .known state ∧ (state.isOpen = false → session.members = []) := by
  obtain ⟨follows, holds, seen, encryption⟩ := fed_run start_fed fed
  have told (subject : Subject) (of_subject : subject ∈ subjects heldByStore stateEventTypes)
      (unstored : ∀ eventType, heldByStore eventType = true → subject ≠ .state eventType) :
      lastTold subject (clocked.map Prod.snd) = some (s.room.report heldByStore subject) := by
    rw [← lastTold_reported, taken]
    refine told_at_rest hrun rest announced subject of_subject fun eventType failed => ?_
    exact unstored eventType ((run_kept start_kept (fun _ there => .inr there) hrun).misread
      eventType failed)
  have told_slots (stable : Bool) : lastTold (.state (typeOf stable)) (clocked.map Prod.snd) =
      some (.state (typeOf stable)
        (s.room.state.filter fun event => event.eventType == typeOf stable)) := by
    rw [told (.state (typeOf stable)) (state_mem_subjects (asked stable) (fetched stable)),
      RoomView.report, fetched stable]
    · rfl
    · rintro eventType held is
      cases is
      rw [fetched stable] at held
      cases held
  have read : r.room.encryption = (if s.room.encrypted then .encrypted else .unencrypted) := by
    have told_encryption := told .encryption List.mem_cons_self fun _ _ is => by cases is
    rw [encryption, foldl_encryptionAfter, told_encryption]
    rfl
  have holds_slot (stable : Bool) (slotId : String) : held r.slots stable slotId =
      lastFor slotId (s.room.state.filter fun event => event.eventType == typeOf stable) := by
    rw [holds, foldl_heardOf, told_slots, Option.elim_some, heardOf, if_pos rfl]
  have seen_slots : r.seenSlots = true := by
    rw [seen, reportsSlots_of_lastTold (told_slots true), Bool.or_true]
  refine ⟨read, fun slotId => ?_⟩
  have state := follows.slotState seen_slots slotId
  refine ⟨_, state, ?_, fun session there => follows.session state there⟩
  rw [holds_slot, holds_slot, Option.map_map]
  rfl

/-- The slot opened meanwhile is open for the application too. -/
theorem feeder_knows_room_meanwhile :
    ∃ s ∈ run (RoomSubscription.step callMemberHeld slotEventTypes 16)
        (.start callMemberHeld slotEventTypes slotless) openedMeanwhile,
      ∃ r ∈ run (RoomFeederRun.step (MembershipFormat.msc.dialect fun _ _ => []) "@bob:x")
          (.start "!r:x") ((0, .observed "m.call#room") :: s.sink.map fun input => (1, input)),
        r.room.encryption = .encrypted ∧
        ∃ state, r.room.slotState "m.call#room" = some state ∧ state.isOpen = true ∧
          ∀ session, r.room.sessions "m.call#room" = some session →
            session.slot = .known state ∧ (state.isOpen = false → session.members = []) := by
  have facts : ∃ s ∈ run (RoomSubscription.step callMemberHeld slotEventTypes 16)
      (.start callMemberHeld slotEventTypes slotless) openedMeanwhile,
      (s.unannounced = false ∧ s.phase = .selecting true ∧
        s.sticky.recv = none ∧ s.updates.recv = none) ∧
      (((((0, .observed "m.call#room") :: s.sink.map fun input => (1, input)) :
        List (ℕ × RoomInput)).map Prod.snd).filter
          fun input => (subjectOf input).isSome) = s.sink ∧
      ∃ r ∈ run (RoomFeederRun.step (MembershipFormat.msc.dialect fun _ _ => []) "@bob:x")
          (.start "!r:x") ((0, .observed "m.call#room") :: s.sink.map fun input => (1, input)),
        r.room.encryption = .encrypted ∧
        ∀ state ∈ r.room.slotState "m.call#room", state.isOpen = true := by
    decide
  obtain ⟨s, hs, ⟨announced, rest⟩, taken, r, hr, encrypted, opened⟩ := facts
  obtain ⟨-, slots⟩ := feeder_knows_room callMemberHeld slotEventTypes 16 slotless openedMeanwhile
    s hs (by decide) (by decide) (atRest_iff.mpr rest) announced
    (MembershipFormat.msc.dialect fun _ _ => []) "@bob:x" "!r:x" _ r taken hr
  obtain ⟨state, is_state, -, sessions⟩ := slots "m.call#room"
  exact ⟨s, hs, r, hr, encrypted, state, is_state, opened state is_state, sessions⟩

end MatrixRtc.RoomSubscriptions

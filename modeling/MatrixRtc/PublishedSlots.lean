import MatrixRtc.SlotContents
import MatrixRtc.FedSlots
import MatrixRtc.StepRuns

/-!
# Slots opened and closed through room state

A slot is opened and closed by a state event of the room, which every device may send and
other clients may write as well. It goes out under one spelling of the slot type and is
read under both, and a device is told of the slot events as whole sets of one spelling, each
some time after the set was read off the room. This module follows a slot from those who
write it to what a device makes of it, and shows that a device which has been told of the
last writing reads the slot the way it was asked for.
-/
namespace MatrixRtc.PublishedSlots
open StepRuns JsonValues MemberEvents MemberContents MemberIngest RoomSlots SlotSessions
open BaseRooms RoomFacts RoomFeeder SlotContents FedSlots

/-- What a device asks of a slot. -/
inductive SlotRequest where
  | opened (slotId applicationType : String) (encryption : Option SlotEncryption)
  | closed (slotId : String)
deriving DecidableEq

def SlotRequest.send (backend : Bool) : SlotRequest → Except String StateEvent
  | .opened slotId applicationType encryption => openSlot backend slotId applicationType encryption
  | .closed slotId => closeSlot backend slotId

/-- What the homeserver adds to an event it takes. -/
structure EventHeader where
  eventId : String
  sender : String
  originServerTs : ℕ
deriving DecidableEq

/-- The event of the room that a send becomes, under the type that goes on the wire. -/
def EventHeader.stamp (header : EventHeader) (event : StateEvent) : EventIn :=
  { eventId := header.eventId
    sender := header.sender
    eventType := wireEventType event.eventType
    stateKey := some event.stateKey
    originServerTs := header.originServerTs
    content := event.content
    encryption := .cleartext }

/-- The room's state with an event taken: it replaces the one of its type and key. -/
def putState (state : List EventIn) (event : EventIn) : List EventIn :=
  state.filter (fun e => !(e.eventType == event.eventType && e.stateKey == event.stateKey)) ++
    [event]

/-- The state of a room on its homeserver, and one device in it: what the client has queued
for the device's feeder, and the room the feeder feeds. -/
structure SlotWorld where
  server : List EventIn
  queue : List RoomInput
  reader : RoomFeederRun

/-- What happens next in the room. -/
inductive SlotAction where
  /-- a device opens or closes a slot; the homeserver may refuse the event -/
  | asked (backend : Bool) (request : SlotRequest) (answer : Option EventHeader)
  /-- any other client writes state -/
  | written (event : EventIn)
  /-- the reader's client reads the set of one type off the room -/
  | captured (eventType : String)
  /-- its client reports anything else -/
  | noticed (input : RoomInput)
  /-- the reader's feeder takes the first report -/
  | delivered (now : ℕ)
  /-- the reader's application acts, or a hold of the room ends -/
  | applied (now : ℕ) (input : RoomInput)

/-- A report of the client that is no state set. -/
def reportsNoState : RoomInput → Bool
  | .sticky _ | .members _ | .encryption _ => true
  | .state .. | .holdsEnded | .joined .. | .left _ | .observed _ => false

/-- No report at all. -/
def isOwnDoing : RoomInput → Bool
  | .holdsEnded | .joined .. | .left _ | .observed _ => true
  | .sticky _ | .state .. | .members _ | .encryption _ => false

namespace SlotWorld

def start (roomId : String) : SlotWorld :=
  { server := []
    queue := []
    reader := .start roomId }

section
variable (dialect : IngestDialect) (ownUserId : String)

def step (w : SlotWorld) : SlotAction → Option SlotWorld
  | .asked backend request answer =>
      match request.send backend, answer with
      | .ok event, some header => some { w with server := putState w.server (header.stamp event) }
      | _, _ => some w
  | .written event =>
      if event.stateKey.isSome then some { w with server := putState w.server event } else none
  | .captured eventType =>
      let events := w.server.filter fun event => event.eventType == eventType
      some { w with queue := w.queue ++ [.state eventType events] }
  | .noticed input =>
      if reportsNoState input then some { w with queue := w.queue ++ [input] } else none
  | .delivered now =>
      match w.queue with
      | [] => none
      | input :: rest =>
          (w.reader.step dialect ownUserId (now, input)).map fun reader =>
            { w with queue := rest, reader := reader }
  | .applied now input =>
      if isOwnDoing input then
        (w.reader.step dialect ownUserId (now, input)).map fun reader =>
          { w with reader := reader }
      else none

end

end SlotWorld

/-- What the event under a slot asks for. -/
inductive Written where
  | opened (applicationType : String) (encryption : Option SlotEncryption)
  | closed
  | other (content : Json)
deriving DecidableEq

/-- What a request writes under the slot, if it is for the slot and is no open of a slot that
does not start with its type. -/
def SlotRequest.writes (slotId : String) : SlotRequest → Option Written
  | .opened asked applicationType encryption =>
      if asked = slotId ∧ startsWith slotId (applicationType ++ "#") then
        some (.opened applicationType encryption)
      else none
  | .closed asked => if asked = slotId then some .closed else none

/-- What a step writes under the slot, and in which spelling. -/
def SlotAction.writes (slotId : String) : SlotAction → Option (Bool × Written)
  | .asked true request (some _) => (request.writes slotId).map fun written => (false, written)
  | .written event =>
      if event.stateKey = some slotId then
        (spelling event.eventType).map fun stable => (stable, .other event.content)
      else none
  | .asked .. | .captured _ | .noticed _ | .delivered _ | .applied .. => none

/-- The last writing under a slot in each spelling (`true` is the stable one), and whether the
reader's client has read the spelling off the room since. -/
structure Ledger where
  written : Bool → Option Written
  shown : Bool → Bool

def Ledger.put (l : Ledger) (stable : Bool) (written : Written) : Ledger :=
  { written := fun b => if b = stable then some written else l.written b
    shown := fun b => b != stable && l.shown b }

def Ledger.note (slotId : String) (l : Ledger) : SlotAction → Ledger
  | .captured eventType => { l with shown := fun b => l.shown b || spelling eventType == some b }
  | a => (a.writes slotId).elim l fun p => l.put p.1 p.2

def ledger (slotId : String) (trace : List SlotAction) : Ledger :=
  trace.foldl (Ledger.note slotId) ⟨fun _ => none, fun _ => false⟩

/-- The stable spelling stands before the unstable one, which is the one devices write. -/
def Ledger.current (l : Ledger) : Option Written := (l.written true).or (l.written false)

/-- How a slot reads in a room, by what was written under it last. -/
def Reads (roomId slotId : String) (room : RoomEncryption) : Option Written → SlotState → Prop
  | some (.opened applicationType encryption), state =>
      ReadsOpened applicationType encryption room state
  | some (.other content), state =>
      state = RawSlotEvent.resolve
        ⟨roomId, slotId, (parseRawSlotEventContent content).getD ⟨none, ⟨none, []⟩, none⟩⟩ room
  | some .closed, state | none, state => state = .closed

/-- What the room's state has under a slot in one spelling. -/
def onServer (server : List EventIn) (stable : Bool) (slotId : String) : Option EventIn :=
  lastFor slotId (server.filter fun event => event.eventType == typeOf stable)

/-- The content of an event says what was written. -/
def Asks (slotId : String) : Written → Json → Prop
  | .opened applicationType encryption, content =>
      startsWith slotId (applicationType ++ "#") = true ∧
        content = rawSlotEventContentToJson (forOpen applicationType encryption)
  | .closed, content => content = rawSlotEventContentToJson forClose
  | .other stated, content => content = stated

section Server
variable {server : List EventIn} {event : EventIn} {slotId : String} {stable : Bool}

theorem onServer_putState :
    onServer (putState server event) stable slotId =
      if event.eventType = typeOf stable ∧ event.stateKey = some slotId then some event
      else onServer server stable slotId := by
  have others (elsewhere : ¬ (event.eventType = typeOf stable ∧ event.stateKey = some slotId)) :
      onServer (server.filter fun e =>
        !(e.eventType == event.eventType && e.stateKey == event.stateKey)) stable slotId =
        onServer server stable slotId := by
    simp only [onServer, lastFor, List.filter_filter]
    congr 1
    refine List.filter_congr fun e _ => ?_
    have kept : e.stateKey = some slotId → e.eventType = typeOf stable →
        ¬ (e.eventType = event.eventType ∧ e.stateKey = event.stateKey) :=
      fun key type same => elsewhere ⟨same.1.symm.trans type, same.2.symm.trans key⟩
    grind
  by_cases is_type : event.eventType = typeOf stable
  · rw [putState, onServer, List.filter_append,
      List.filter_cons_of_pos (by simpa using is_type), List.filter_nil, lastFor_concat]
    by_cases is_key : event.stateKey = some slotId
    · rw [if_pos is_key, if_pos ⟨is_type, is_key⟩]
    · rw [if_neg is_key, if_neg fun both => is_key both.2]
      exact others fun both => is_key both.2
  · rw [putState, onServer, List.filter_append,
      List.filter_cons_of_neg (by simpa using is_type), List.filter_nil, List.append_nil,
      if_neg fun both => is_type both.1]
    exact others fun both => is_type both.1

end Server

/-- A request that reaches the backend writes its slot and no other. -/
theorem send_ok {backend : Bool} {request : SlotRequest} {event : StateEvent}
    (h : request.send backend = .ok event) (slotId : String) :
    backend = true ∧ event.eventType = slotEventType ∧
      ((∃ written, request.writes slotId = some written ∧ event.stateKey = slotId ∧
          Asks slotId written event.content) ∨
        request.writes slotId = none ∧ event.stateKey ≠ slotId) := by
  cases request with
  | opened asked applicationType encryption =>
      simp only [SlotRequest.send, openSlot, sendSlotState] at h
      split_ifs at h with refused there
      cases h
      have starts : startsWith asked (applicationType ++ "#") = true := by simpa using refused
      refine ⟨there, rfl, ?_⟩
      simp only [SlotRequest.writes]
      by_cases same : asked = slotId
      · subst same
        exact .inl ⟨_, if_pos ⟨rfl, starts⟩, rfl, starts, rfl⟩
      · exact .inr ⟨if_neg fun both => same both.1, same⟩
  | closed asked =>
      simp only [SlotRequest.send, closeSlot, sendSlotState] at h
      split_ifs at h with there
      cases h
      refine ⟨there, rfl, ?_⟩
      simp only [SlotRequest.writes]
      by_cases same : asked = slotId
      · subst same
        exact .inl ⟨_, if_pos rfl, rfl, rfl⟩
      · exact .inr ⟨if_neg same, same⟩

/-- A request that does not reach the backend writes nothing. -/
theorem send_error {backend : Bool} {request : SlotRequest} {refusal : String}
    (h : request.send backend = .error refusal) (slotId : String) :
    backend = false ∨ request.writes slotId = none := by
  cases backend with
  | false => exact .inl rfl
  | true =>
      refine .inr ?_
      cases request with
      | opened asked applicationType encryption =>
          simp only [SlotRequest.send, openSlot, sendSlotState] at h
          split_ifs at h with refused
          refine if_neg fun both => ?_
          rw [both.1] at refused
          rw [both.2] at refused
          cases refused
      | closed asked => cases h

/-- The last writings of a slot stand in the room, and the reader holds, or will when its queue
is done, what its client has read off the room since. -/
structure Follows (roomId slotId : String) (l : Ledger) (w : SlotWorld) : Prop where
  fed : Fed roomId w.reader
  written : ∀ stable, Option.Rel (fun written event => Asks slotId written event.content)
    (l.written stable) (onServer w.server stable slotId)
  latest : ∀ stable, l.shown stable = true →
    w.queue.foldl (heardOf stable slotId) (held w.reader.slots stable slotId) =
      onServer w.server stable slotId
  told : ∀ stable, l.shown stable = true →
    w.reader.seenSlots = true ∨ ∃ input ∈ w.queue, reportsSlots input = true

section Runs
variable {dialect : IngestDialect} {ownUserId roomId slotId : String} {l : Ledger}
  {w w' : SlotWorld}

theorem start_follows : Follows roomId slotId ⟨fun _ => none, fun _ => false⟩ (.start roomId) where
  fed := start_fed
  written := fun _ => .none
  latest := fun _ shown => by cases shown
  told := fun _ shown => by cases shown

/-- An event put under the slot in one spelling is the last writing there. -/
theorem Follows.put (h : Follows roomId slotId l w) {event : EventIn} {stable : Bool}
    {written : Written} (type : event.eventType = typeOf stable)
    (key : event.stateKey = some slotId) (asks : Asks slotId written event.content) :
    Follows roomId slotId (l.put stable written)
      { w with server := putState w.server event } := by
  have there (b : Bool) :
      (event.eventType = typeOf b ∧ event.stateKey = some slotId) ↔ b = stable := by
    rw [← spelling_eq_some, spelling_eq_some.mpr type]
    exact ⟨fun both => (Option.some.inj both.1).symm, fun same => ⟨congrArg some same.symm, key⟩⟩
  refine ⟨h.fed, fun b => ?_, fun b shown => ?_, fun b shown => ?_⟩
  · simp only [Ledger.put, onServer_putState, there]
    split_ifs
    · exact .some asks
    · exact h.written b
  · obtain ⟨differs, shown⟩ := Bool.and_eq_true_iff.mp shown
    simp only [onServer_putState, there, if_neg (bne_iff_ne.mp differs)]
    exact h.latest b shown
  · exact h.told b (Bool.and_eq_true_iff.mp shown).2

theorem Follows.putElsewhere (h : Follows roomId slotId l w) {event : EventIn}
    (elsewhere : ∀ stable, ¬ (event.eventType = typeOf stable ∧ event.stateKey = some slotId)) :
    Follows roomId slotId l { w with server := putState w.server event } where
  fed := h.fed
  written := fun b => by
    rw [onServer_putState, if_neg (elsewhere b)]
    exact h.written b
  latest := fun b shown => by
    rw [onServer_putState, if_neg (elsewhere b)]
    exact h.latest b shown
  told := h.told

/-- What a step that writes the slot leaves is what the ledger notes. -/
theorem asked_follows (h : Follows roomId slotId l w) {backend : Bool} {request : SlotRequest}
    {answer : Option EventHeader}
    (hstep : w.step dialect ownUserId (.asked backend request answer) = some w') :
    Follows roomId slotId (l.note slotId (.asked backend request answer)) w' := by
  simp only [SlotWorld.step] at hstep
  cases sent : request.send backend with
  | error refusal =>
      rw [sent] at hstep
      cases hstep
      have silent : SlotAction.writes slotId (.asked backend request answer) = none := by
        rcases send_error sent slotId with rfl | none_written
        · rfl
        · cases answer with
          | none => cases backend <;> rfl
          | some header =>
              cases backend with
              | false => rfl
              | true => rw [SlotAction.writes, none_written, Option.map_none]
      change Follows roomId slotId ((SlotAction.writes slotId _).elim l _) _
      rw [silent]
      exact h
  | ok event =>
      rw [sent] at hstep
      cases answer with
      | none =>
          cases hstep
          cases backend <;> exact h
      | some header =>
          cases hstep
          obtain ⟨rfl, of_slot, written⟩ := send_ok sent slotId
          rcases written with ⟨written, writes, key, asks⟩ | ⟨none_written, elsewhere⟩
          · change Follows roomId slotId
              (((request.writes slotId).map fun written => (false, written)).elim l
                fun p => l.put p.1 p.2) _
            rw [writes]
            have type : (header.stamp event).eventType = typeOf false := by
              rw [EventHeader.stamp, of_slot]
              rfl
            exact h.put type (congrArg some key) asks
          · change Follows roomId slotId (((request.writes slotId).map _).elim l _) _
            rw [none_written]
            exact h.putElsewhere fun _ both => elsewhere (Option.some.inj both.2)

theorem written_follows (h : Follows roomId slotId l w) {event : EventIn}
    (hstep : w.step dialect ownUserId (.written event) = some w') :
    Follows roomId slotId (l.note slotId (.written event)) w' := by
  simp only [SlotWorld.step] at hstep
  split_ifs at hstep
  cases hstep
  change Follows roomId slotId ((SlotAction.writes slotId (.written event)).elim l
    fun p => l.put p.1 p.2) _
  rw [SlotAction.writes]
  split_ifs with key
  · cases is_spelling : spelling event.eventType with
    | none =>
        refine h.putElsewhere fun stable both => ?_
        rw [spelling_eq_some.mpr both.1] at is_spelling
        cases is_spelling
    | some stable => exact h.put (spelling_eq_some.mp is_spelling) key rfl
  · exact h.putElsewhere fun _ both => key both.2

theorem captured_follows (h : Follows roomId slotId l w) {eventType : String}
    (hstep : w.step dialect ownUserId (.captured eventType) = some w') :
    Follows roomId slotId (l.note slotId (.captured eventType)) w' := by
  cases hstep
  refine ⟨h.fed, h.written, fun stable shown => ?_, fun stable shown => ?_⟩
  · rw [List.foldl_concat, heardOf]
    by_cases of_type : eventType = typeOf stable
    · rw [if_pos of_type, of_type]
      rfl
    · rw [if_neg of_type]
      rcases Bool.or_eq_true_iff.mp shown with before | now_shown
      · exact h.latest stable before
      · exact absurd (spelling_eq_some.mp (beq_iff_eq.mp now_shown)) of_type
  · rcases Bool.or_eq_true_iff.mp shown with before | now_shown
    · rcases h.told stable before with seen | ⟨input, there, slots⟩
      · exact .inl seen
      · exact .inr ⟨input, List.mem_append_left _ there, slots⟩
    · refine .inr ⟨_, List.mem_append_right _ List.mem_cons_self, ?_⟩
      rw [reportsSlots, beq_iff_eq.mp now_shown]
      rfl

theorem noticed_follows (h : Follows roomId slotId l w) {input : RoomInput}
    (hstep : w.step dialect ownUserId (.noticed input) = some w') :
    Follows roomId slotId (l.note slotId (.noticed input)) w' := by
  simp only [SlotWorld.step] at hstep
  split_ifs at hstep with no_state
  cases hstep
  refine ⟨h.fed, h.written, fun stable shown => ?_, fun stable shown => ?_⟩
  · rw [List.foldl_concat]
    cases input with
    | state => cases no_state
    | sticky | members | encryption | holdsEnded | joined | left | observed =>
        exact h.latest stable shown
  · rcases h.told stable shown with seen | ⟨other, there, slots⟩
    · exact .inl seen
    · exact .inr ⟨other, List.mem_append_left _ there, slots⟩

theorem delivered_follows (h : Follows roomId slotId l w) {now : ℕ}
    (hstep : w.step dialect ownUserId (.delivered now) = some w') :
    Follows roomId slotId (l.note slotId (.delivered now)) w' := by
  simp only [SlotWorld.step] at hstep
  cases is_queue : w.queue with
  | nil =>
      rw [is_queue] at hstep
      cases hstep
  | cons input rest =>
      rw [is_queue] at hstep
      obtain ⟨reader, read, rfl⟩ := Option.map_eq_some_iff.mp hstep
      have heard := reader_step h.fed read
      refine ⟨heard.fed, h.written, fun stable shown => ?_, fun stable shown => ?_⟩
      · have latest := h.latest stable shown
        rw [is_queue, List.foldl_cons, ← heard.holds] at latest
        exact latest
      · rw [heard.seen]
        rcases h.told stable shown with seen | ⟨other, there, slots⟩
        · exact .inl (by rw [seen, Bool.true_or])
        · rw [is_queue] at there
          rcases List.mem_cons.mp there with rfl | later
          · exact .inl (by rw [slots, Bool.or_true])
          · exact .inr ⟨other, later, slots⟩

theorem applied_follows (h : Follows roomId slotId l w) {now : ℕ} {input : RoomInput}
    (hstep : w.step dialect ownUserId (.applied now input) = some w') :
    Follows roomId slotId (l.note slotId (.applied now input)) w' := by
  simp only [SlotWorld.step] at hstep
  split_ifs at hstep with own
  obtain ⟨reader, read, rfl⟩ := Option.map_eq_some_iff.mp hstep
  have heard := reader_step h.fed read
  have quiet (stable : Bool) :
      held reader.slots stable slotId = held w.reader.slots stable slotId := by
    rw [heard.holds]
    cases input with
    | state => cases own
    | sticky | members | encryption | holdsEnded | joined | left | observed => rfl
  refine ⟨heard.fed, h.written, fun stable shown => ?_, fun stable shown => ?_⟩
  · rw [quiet]
    exact h.latest stable shown
  · refine (h.told stable shown).imp_left fun seen => ?_
    rw [heard.seen, seen, Bool.true_or]

theorem step_follows (h : Follows roomId slotId l w) {a : SlotAction}
    (hstep : w.step dialect ownUserId a = some w') :
    Follows roomId slotId (l.note slotId a) w' := by
  cases a with
  | asked backend request answer => exact asked_follows h hstep
  | written event => exact written_follows h hstep
  | captured eventType => exact captured_follows h hstep
  | noticed input => exact noticed_follows h hstep
  | delivered now => exact delivered_follows h hstep
  | applied now input => exact applied_follows h hstep

theorem run_follows {trace : List SlotAction} (h : Follows roomId slotId l w)
    (hrun : run (SlotWorld.step dialect ownUserId) w trace = some w') :
    Follows roomId slotId (trace.foldl (Ledger.note slotId) l) w' := by
  induction trace generalizing l w with
  | nil =>
      cases hrun
      exact h
  | cons a rest ih =>
      obtain ⟨u, first, later⟩ := run_cons.mp hrun
      exact ih (step_follows h first) later

theorem reads_of_asks {written : Written} {event : EventIn}
    (asks : Asks slotId written event.content) (room : RoomEncryption) :
    Reads roomId slotId room (some written)
      (RawSlotEvent.resolve (slotEvent roomId slotId event) room) := by
  cases written with
  | opened applicationType encryption =>
      obtain ⟨starts, content⟩ := asks
      rw [slotEvent, content]
      exact reads_opened starts
  | closed =>
      rw [slotEvent, show event.content = _ from asks]
      exact reads_closed
  | other stated =>
      rw [slotEvent, show event.content = _ from asks]
      rfl

/-- A slot that nothing stands under is closed. -/
theorem reads_current {written : Bool → Option Written} {stands : Bool → Option EventIn}
    (asks : ∀ stable, Option.Rel (fun written event => Asks slotId written event.content)
      (written stable) (stands stable)) (room : RoomEncryption) :
    Reads roomId slotId room ((written true).or (written false))
      (((((stands true).or (stands false)).map (slotEvent roomId slotId)).map
        fun slot => slot.resolve room).getD .closed) := by
  have stable := asks true
  have unstable := asks false
  generalize written true = first, stands true = event at *
  generalize written false = second, stands false = event' at *
  cases stable with
  | some asks => exact reads_of_asks asks room
  | none =>
      cases unstable with
      | some asks => exact reads_of_asks asks room
      | none => rfl

end Runs

/-- Whoever opens and closes a slot, and whatever other clients write, in any order and with
any delays on the way to a device: once the device's client has read both spellings of the
slot type off the room since the last writing of the slot in them and its feeder has taken what
was read, the device reads the slot the way the room's event asks for it. It takes the stable
event where there is one, else the last slot opened or closed. Every session of the device
knows this, and has no members while the slot is closed. -/
theorem slot_read_as_asked (dialect : IngestDialect) (ownUserId roomId slotId : String)
    (trace : List SlotAction) (w : SlotWorld)
    (hrun : run (SlotWorld.step dialect ownUserId) (.start roomId) trace = some w)
    (taken : w.queue = []) (shown : ∀ stable, (ledger slotId trace).shown stable = true) :
    ∃ state, w.reader.room.slotState slotId = some state ∧
      Reads roomId slotId w.reader.room.encryption (ledger slotId trace).current state ∧
      ∀ s, w.reader.room.sessions slotId = some s →
        s.slot = .known state ∧ (state.isOpen = false → s.members = []) := by
  have follows : Follows roomId slotId (ledger slotId trace) w := run_follows start_follows hrun
  have holds (stable : Bool) :
      held w.reader.slots stable slotId = onServer w.server stable slotId := by
    have latest := follows.latest stable (shown stable)
    rwa [taken] at latest
  have seen : w.reader.seenSlots = true := by
    rcases follows.told true (shown true) with seen | ⟨input, there, -⟩
    · exact seen
    · rw [taken] at there
      cases there
  have state := follows.fed.slotState seen slotId
  rw [holds, holds] at state
  refine ⟨_, state, ?_, fun s there => follows.fed.session state there⟩
  exact reads_current follows.written _

section Concrete

/-- A slot closed and opened again, with an open refused in between, and read by a device that
was told of the closing first. -/
def reopened : List SlotAction :=
  [.applied 0 (.observed "m.call#room"), .noticed (.encryption true),
    .asked true (.closed "m.call#room") (some ⟨"$closed", "@alice:x", 1⟩),
    .captured "m.rtc.slot", .captured "org.matrix.msc4143.rtc.slot",
    .asked true (.opened "m.call#room" "m.chat" none) (some ⟨"$refused", "@alice:x", 2⟩),
    .asked true (.opened "m.call#room" "m.call" (some ⟨"m.per_member", []⟩))
      (some ⟨"$opened", "@carol:x", 3⟩),
    .delivered 4, .delivered 4, .delivered 4, .captured "org.matrix.msc4143.rtc.slot",
    .delivered 5]

/-- The device reads the slot as it was opened last. -/
theorem slot_read_as_asked_reopened :
    ∃ w ∈ run (SlotWorld.step (MembershipFormat.msc.dialect fun _ _ => []) "@bob:x")
        (.start "!r:x") reopened,
      w.reader.room.encryption = .encrypted ∧
      (ledger "m.call#room" reopened).current =
        some (.opened "m.call" (some ⟨"m.per_member", []⟩)) ∧
      ∃ state, w.reader.room.slotState "m.call#room" = some state ∧ state.isOpen = true ∧
        Reads "!r:x" "m.call#room" w.reader.room.encryption
          (ledger "m.call#room" reopened).current state ∧
        ∀ s, w.reader.room.sessions "m.call#room" = some s →
          s.slot = .known state ∧ (state.isOpen = false → s.members = []) := by
  have facts : ∃ w ∈ run (SlotWorld.step (MembershipFormat.msc.dialect fun _ _ => []) "@bob:x")
      (.start "!r:x") reopened, w.queue = [] ∧ w.reader.room.encryption = .encrypted ∧
        ∀ state ∈ w.reader.room.slotState "m.call#room", state.isOpen = true := by
    decide
  obtain ⟨w, hw, taken, encrypted, opened⟩ := facts
  obtain ⟨state, is_state, reads, sessions⟩ := slot_read_as_asked
    (MembershipFormat.msc.dialect fun _ _ => []) "@bob:x" "!r:x" "m.call#room" reopened w hw taken
    (by decide)
  exact ⟨w, hw, encrypted, by decide, state, is_state, opened state is_state, reads, sessions⟩

end Concrete

end MatrixRtc.PublishedSlots

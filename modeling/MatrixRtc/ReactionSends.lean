import MatrixRtc.ListPlaces
import MatrixRtc.Outboxes
import MatrixRtc.RaisedHands
import MatrixRtc.StepRuns

/-!
# Sending reactions from one participation

Calls of `send_reaction` run at once. Each checks the cooldown under the room's lock, sends
through the one reaction slot of the participation without it, and records its landing under the
lock again. Each acquisition of a lock and each await is a step, so that steps of other calls may
stand between any two. Time passes between steps only, and attempts end when and as they may.
-/
namespace MatrixRtc.ReactionSends
open HostAnswers JsonValues Outboxes RaisedHands StepRuns ListPlaces

/-- `REACTION_BUDGET`. -/
def reactionBudget : ℕ := 5000

inductive RtcError where
  | sessionOver
  | reaction (error : ReactionError)
deriving DecidableEq

/-- What `run` keeps of a send: the generation it took, its policy, and the retries so far. -/
structure Sending where
  generation : ℕ
  policy : SendPolicy
  backoff : ℕ
  last : Option CommandError
deriving DecidableEq

/-- Where a call awaits or stands between two locks; or how it returned. -/
inductive Stage where
  | prepared
  | ready (send : Sending)
  /-- Between the two acquisitions of `Outbox::claim`. -/
  | checked (send : Sending)
  | attempting (send : Sending) (budgetEnd : ℕ)
  /-- The attempt is over, the slot free, and what it came to not looked at. -/
  | judging (send : Sending) (outcome : AttemptOutcome)
  | resting (send : Sending) (wakeAt reports : ℕ)
  | landed (eventId : String)
  | returned (result : Except RtcError String)
  | dropped

/-- A call with its content, if it got to its send. `seen` says how many reactions had landed as
it was checked, and `succeeded` that an attempt of it was answered with success. -/
structure Call where
  content : Option Json
  stage : Stage
  seen : ℕ
  succeeded : Bool

/-- One participation. `landings` has when the reactions landed, the newest first. -/
structure Sends where
  now : ℕ
  reactions : ReactionsState
  /-- The user of the state's own call, while joined. -/
  own : Option String
  slot : Slot
  onlineEpoch : ℕ
  calls : List Call
  landings : List ℕ

inductive Action where
  | tick (ms : ℕ)
  | online
  /-- A call up to the send; what it found of `check_live`, of its slot's state and of the core. -/
  | call (live session : Bool) (emoji name : String) (memberId membershipEventId : Option String)
  | begin (i : ℕ)
  | check (i : ℕ)
  | take (i : ℕ)
  | answered (i : ℕ) (answer : Except CommandError String)
  | elapsed (i : ℕ)
  | judge (i : ℕ)
  | deadline (i : ℕ)
  | slept (i : ℕ)
  | poked (i : ℕ)
  | record (i : ℕ)
  | drop (i : ℕ)
  | cancelled
  | left

namespace Sends
variable (s : Sends)

/-- `own_relation_target`: our membership event, which reactions relate to. -/
def ownRelationTarget (session : Bool) (memberId membershipEventId : Option String) :
    Except ReactionError (String × String × String) :=
  if !session then .error .noSession
  else
    match s.own with
    | none => .error .notJoined
    | some own =>
        match memberId with
        | none => .error .notJoined
        | some memberId =>
            match membershipEventId with
            | none => .error .notJoined
            | some membershipEventId => .ok (own, memberId, membershipEventId)

/-- `prepare_reaction`: what is to be sent. -/
def prepareReaction (graphemes : String → List String) (session : Bool) (emoji name : String)
    (memberId membershipEventId : Option String) : Except ReactionError Json :=
  if !session then .error .noSession
  else if firstGrapheme graphemes emoji = "" then .error .emptyEmoji
  else
    match s.reactions.checkSendAllowed s.now with
    | .error error => .error error
    | .ok () =>
        match s.ownRelationTarget session memberId membershipEventId with
        | .error error => .error error
        | .ok (_, _, target) =>
            .ok (buildReactionContent target (firstGrapheme graphemes emoji) name)

/-- The call goes on to another stage. -/
def move (i : ℕ) (call : Call) (stage : Stage) : Sends :=
  { s with calls := s.calls.set i { call with stage := stage } }

def add (content : Option Json) (stage : Stage) : Sends :=
  { s with calls := s.calls ++ [⟨content, stage, s.landings.length, false⟩] }

/-- `send_reaction` up to the send. -/
def sendReaction (graphemes : String → List String) (live session : Bool) (emoji name : String)
    (memberId membershipEventId : Option String) : Sends :=
  if !live then s.add none (.returned (.error .sessionOver))
  else
    match s.prepareReaction graphemes session emoji name memberId membershipEventId with
    | .error error => s.add none (.returned (.error (.reaction error)))
    | .ok content => s.add (some content) .prepared

/-- What a failed send has the call return. -/
def failed : SendFailure → Stage
  | .refused error => .returned (.error (.reaction (.command error)))
  | .superseded | .cancelled | .deadlineElapsed _ | .timedOut | .failed _ =>
      .returned (.error (.reaction .notSent))

def begin (i : ℕ) (call : Call) : Sends :=
  { s.move i call (.ready
      { generation := s.slot.register.generation
        policy := { SendPolicy.new.until (s.now + reactionBudget) with retryTimedOut := false }
        backoff := backoffInitial
        last := none }) with
    slot := s.slot.register }

/-- A look whether the send has ended, which goes on to `stage` if not. -/
def look (i : ℕ) (call : Call) (send : Sending) (stage : Stage) : Sends :=
  s.move i call (((s.slot.ended send.generation).map failed).getD stage)

/-- The claim's second acquisition: busy, or the attempt starts. -/
def take (i : ℕ) (call : Call) (send : Sending) : Sends :=
  if s.slot.inFlight then s.move i call (.ready send)
  else
    { s.move i call (.attempting send (s.now + send.policy.budget s.now)) with
      slot := { s.slot with inFlight := true } }

/-- The attempt is over: the slot is free again. A success lands. -/
def endAttempt (i : ℕ) (call : Call) (send : Sending) (outcome : AttemptOutcome) : Sends :=
  let freed := { s.slot with inFlight := false }
  match outcome with
  | .answered (.ok _) =>
      { s.move i { call with succeeded := true } (.judging send outcome) with
        slot := freed, landings := s.now :: s.landings }
  | .answered (.error _) | .elapsed => { s.move i call (.judging send outcome) with slot := freed }

/-- What becomes of a send that has not ended. -/
def judged (send : Sending) (outcome : AttemptOutcome) : Stage :=
  match Outboxes.judge send.policy send.backoff s.now send.last outcome with
  | .done (.ok eventId) => .landed eventId
  | .done (.error failure) => failed failure
  | .retry delay last =>
      .resting { send with backoff := min (send.backoff * 2) backoffMax, last := last }
        (s.now + delay) s.onlineEpoch

/-- A send whose deadline has passed in a wait. -/
def overdue (i : ℕ) (call : Call) (send : Sending) : Option Sends :=
  if send.policy.overdue s.now then some (s.move i call (failed (.deadlineElapsed send.last)))
  else none

end Sends

/-- The step of a call, by where it stands. -/
def callStep (s : Sends) (i : ℕ) (call : Call) : Action → Option Sends
  | .begin _ =>
      match call.stage with
      | .prepared => some (s.begin i call)
      | _ => none
  | .check _ =>
      match call.stage with
      | .ready send => some (s.look i call send (.checked send))
      | _ => none
  | .take _ =>
      match call.stage with
      | .checked send => some (s.take i call send)
      | _ => none
  | .answered _ answer =>
      match call.stage with
      | .attempting send _ => some (s.endAttempt i call send (.answered answer))
      | _ => none
  | .elapsed _ =>
      match call.stage with
      | .attempting send budgetEnd =>
          if budgetEnd ≤ s.now then some (s.endAttempt i call send .elapsed) else none
      | _ => none
  | .judge _ =>
      match call.stage with
      | .judging send outcome => some (s.look i call send (s.judged send outcome))
      | _ => none
  | .deadline _ =>
      match call.stage with
      | .ready send => s.overdue i call send
      | .resting send _ _ => s.overdue i call send
      | _ => none
  | .slept _ =>
      match call.stage with
      | .resting send wakeAt _ =>
          if wakeAt ≤ s.now ∧ send.policy.overdue wakeAt = false then
            some (s.move i call (.ready send))
          else none
      | _ => none
  | .poked _ =>
      match call.stage with
      | .resting send wakeAt reports =>
          some (s.look i call send
            (if s.onlineEpoch ≠ reports then .ready send else .resting send wakeAt reports))
      | _ => none
  | .record _ =>
      match call.stage with
      | .landed eventId =>
          some { s.move i call (.returned (.ok eventId)) with
            reactions := s.reactions.recordSent s.now }
      | _ => none
  | .drop _ =>
      match call.stage with
      | .ready _ | .resting _ _ _ | .landed _ => some (s.move i call .dropped)
      | .attempting _ _ =>
          some { s.move i call .dropped with slot := { s.slot with inFlight := false } }
      | _ => none
  | _ => none

/-- The call an action is of. -/
def Action.caller : Action → Option ℕ
  | .begin i | .check i | .take i | .answered i _ | .elapsed i | .judge i | .deadline i | .slept i
  | .poked i | .record i | .drop i => some i
  | .tick _ | .online | .call .. | .cancelled | .left => none

def step (graphemes : String → List String) (s : Sends) (a : Action) : Option Sends :=
  match a with
  | .tick ms => some { s with now := s.now + ms }
  | .online => some { s with onlineEpoch := s.onlineEpoch + 1 }
  | .call live session emoji name memberId membershipEventId =>
      some (s.sendReaction graphemes live session emoji name memberId membershipEventId)
  | .cancelled => some { s with slot := s.slot.cancel }
  | .left => some { s with own := none, reactions := s.reactions.resetOwn }
  | _ => a.caller.bind fun i => (s.calls[i]?).bind fun call => callStep s i call a

/-- Its attempt succeeded, and the send has not looked since. -/
def Stage.AwaitsLook (stage : Stage) : Prop :=
  ∃ send eventId, stage = .judging send (.answered (.ok eventId))

/-- A landing that is not recorded yet. -/
def Stage.Unrecorded (stage : Stage) : Prop :=
  stage.AwaitsLook ∨ ∃ eventId, stage = .landed eventId

def Stage.over : Stage → Bool
  | .returned _ | .dropped => true
  | _ => false

/-- An attempt succeeds only while its call holds the slot and with nothing landed since the
call was checked; and until that landing is recorded the slot is not taken over or cancelled,
no call is checked, and the call is not dropped. -/
def Undisturbed (s : Sends) : Action → Prop
  | .answered i (.ok _) => ∀ call ∈ s.calls[i]?, call.seen = s.landings.length ∧
      ∀ send budgetEnd, call.stage = .attempting send budgetEnd →
        send.generation = s.slot.generation
  | .begin _ | .cancelled => ∀ call ∈ s.calls, ¬call.stage.AwaitsLook
  | .call .. => ∀ call ∈ s.calls, ¬call.stage.Unrecorded
  | .drop i => ∀ call ∈ s.calls[i]?, ∀ eventId, call.stage ≠ .landed eventId
  | _ => True

/-- What the calls and their users may rely on: who is told `NotSent` has had no attempt
answered with success, and reactions land at least the cooldown apart. -/
structure Kept (s : Sends) : Prop where
  not_sent : ∀ call ∈ s.calls, call.stage = .returned (.error (.reaction .notSent)) →
    call.succeeded = false
  spaced : s.landings.Pairwise fun newer older =>
    older + s.reactions.config.sendCooldownMs ≤ newer

/-- A success not looked at is of the send that holds the slot; and a call whose attempt
succeeded is about to return that, or has. -/
structure CallSound (slot : Slot) (call : Call) : Prop where
  held : ∀ send eventId, call.stage = .judging send (.answered (.ok eventId)) →
    send.generation = slot.generation
  told : call.succeeded = true →
    call.stage.Unrecorded ∨ ∃ eventId, call.stage = .returned (.ok eventId)

/-- The landings in order, each but the last in the record, and the calls that were checked
after the last of them late enough. -/
structure Sound (s : Sends) : Prop where
  past : ∀ l ∈ s.landings, l ≤ s.now
  spaced : s.landings.Pairwise fun newer older =>
    older + s.reactions.config.sendCooldownMs ≤ newer
  calls : ∀ call ∈ s.calls, CallSound s.slot call
  seen_le : ∀ call ∈ s.calls, call.seen ≤ s.landings.length
  checked : ∀ call ∈ s.calls, call.stage.over = false → call.seen = s.landings.length →
    ∀ l ∈ s.landings, l + s.reactions.config.sendCooldownMs ≤ s.now
  recorded : s.own = none ∨ (∃ call ∈ s.calls, call.stage.Unrecorded) ∨
    ∀ l ∈ s.landings, ∃ last ∈ s.reactions.lastSentMs, l ≤ last ∧ last ≤ s.now

theorem CallSound.of_generation {slot slot' : Slot} {call : Call}
    (same : slot'.generation = slot.generation) (h : CallSound slot call) :
    CallSound slot' call :=
  ⟨fun send eventId at_ => (h.held send eventId at_).trans same.symm, h.told⟩

theorem CallSound.not_succeeded {slot : Slot} {call : Call} (h : CallSound slot call)
    (unsettled : ¬call.stage.Unrecorded) (unreturned : call.stage.over = false) :
    call.succeeded = false := by
  cases succeeded : call.succeeded with
  | false => rfl
  | true =>
      rcases h.told succeeded with now | ⟨eventId, at_⟩
      · exact absurd now unsettled
      · rw [at_] at unreturned
        cases unreturned

theorem mem_set {calls : List Call} {i : ℕ} {new c : Call} (h : c ∈ calls.set i new) :
    c = new ∨ c ∈ calls := by
  obtain ⟨k, at_⟩ := List.mem_iff_getElem?.mp h
  rcases of_set at_ with ⟨-, rfl⟩ | ⟨-, at_⟩
  · exact .inl rfl
  · exact .inr (List.mem_of_getElem? at_)

theorem mem_set_self {calls : List Call} {i : ℕ} {call new : Call}
    (there : calls[i]? = some call) : new ∈ calls.set i new := by
  obtain ⟨lt, -⟩ := List.getElem?_eq_some_iff.mp there
  exact List.mem_set lt new

theorem mem_set_of_ne {calls : List Call} {i : ℕ} {call new c : Call}
    (there : calls[i]? = some call) (hc : c ∈ calls) : c = call ∨ c ∈ calls.set i new := by
  obtain ⟨k, at_⟩ := List.mem_iff_getElem?.mp hc
  by_cases same : k = i
  · subst same
    exact .inl (Option.some.inj (at_.symm.trans there))
  · refine .inr (List.mem_of_getElem? (i := k) ?_)
    rw [List.getElem?_set_ne (Ne.symm same)]
    exact at_

/-- A call that has no success, or has it returned, moves to a stage that has none. -/
theorem Sound.move {s : Sends} (h : Sound s) {i : ℕ} {call : Call}
    (there : s.calls[i]? = some call) {stage : Stage} (quiet : ¬stage.AwaitsLook)
    (unsettled : ¬call.stage.Unrecorded) (unreturned : call.stage.over = false) :
    Sound (s.move i call stage) := by
  have mem := List.mem_of_getElem? there
  have none_ := (h.calls call mem).not_succeeded unsettled unreturned
  exact
    { past := h.past
      spaced := h.spaced
      calls := fun c hc => by
        rcases mem_set hc with rfl | hc
        · exact ⟨fun send eventId at_ => absurd ⟨send, eventId, at_⟩ quiet,
            fun succeeded => absurd (none_.symm.trans succeeded) (by decide)⟩
        · exact h.calls c hc
      seen_le := fun c hc => by
        rcases mem_set hc with rfl | hc
        · exact h.seen_le call mem
        · exact h.seen_le c hc
      checked := fun c hc live => by
        rcases mem_set hc with rfl | hc
        · exact h.checked call mem unreturned
        · exact h.checked c hc live
      recorded := by
        rcases h.recorded with left | ⟨c, hc, settling⟩ | all
        · exact .inl left
        · rcases mem_set_of_ne there hc with rfl | hc
          · exact absurd settling unsettled
          · exact .inr (.inl ⟨c, hc, settling⟩)
        · exact .inr (.inr all) }

theorem Sound.slot {s : Sends} (h : Sound s) {slot : Slot}
    (same : slot.generation = s.slot.generation) : Sound { s with slot := slot } :=
  { h with calls := fun c hc => (h.calls c hc).of_generation same }

theorem Sound.newSlot {s : Sends} (h : Sound s) (slot : Slot)
    (none_ : ∀ call ∈ s.calls, ¬call.stage.AwaitsLook) : Sound { s with slot := slot } :=
  { h with
    calls := fun c hc =>
      ⟨fun send eventId at_ => absurd ⟨send, eventId, at_⟩ (none_ c hc), (h.calls c hc).told⟩ }

theorem failed_quiet (failure : SendFailure) : ¬(Sends.failed failure).AwaitsLook := by
  rintro ⟨send, eventId, at_⟩
  cases failure <;> cases at_

theorem judged_quiet (s : Sends) (send : Sending) (outcome : AttemptOutcome) :
    ¬(s.judged send outcome).AwaitsLook := by
  rintro ⟨send', eventId, at_⟩
  unfold Sends.judged at at_
  split at at_
  · cases at_
  · exact failed_quiet _ ⟨send', eventId, at_⟩
  · cases at_

theorem Sound.look {s : Sends} (h : Sound s) {i : ℕ} {call : Call}
    (there : s.calls[i]? = some call) {send : Sending} {stage : Stage} (quiet : ¬stage.AwaitsLook)
    (unsettled : ¬call.stage.Unrecorded) (unreturned : call.stage.over = false) :
    Sound (s.look i call send stage) := by
  unfold Sends.look
  cases s.slot.ended send.generation with
  | none => exact h.move there quiet unsettled unreturned
  | some failure => exact h.move there (failed_quiet failure) unsettled unreturned

/-- A success, looked at while the send holds the slot, is what the call returns. -/
theorem Sound.landed {s : Sends} (h : Sound s) {i : ℕ} {call : Call}
    (there : s.calls[i]? = some call) {send : Sending} {eventId : String}
    (at_ : call.stage = .judging send (.answered (.ok eventId))) :
    Sound (s.look i call send (s.judged send (.answered (.ok eventId)))) := by
  have mem := List.mem_of_getElem? there
  have held := (h.calls call mem).held send eventId at_
  have goes : s.look i call send (s.judged send (.answered (.ok eventId))) =
      s.move i call (.landed eventId) := by
    rw [Sends.look, Slot.ended_eq_none.mpr held.symm]
    rfl
  rw [goes]
  have unreturned : call.stage.over = false := by rw [at_]; rfl
  exact
    { past := h.past
      spaced := h.spaced
      calls := fun c hc => by
        rcases mem_set hc with rfl | hc
        · exact ⟨fun _ _ at_ => (nomatch at_), fun _ => .inl (.inr ⟨eventId, rfl⟩)⟩
        · exact h.calls c hc
      seen_le := fun c hc => by
        rcases mem_set hc with rfl | hc
        · exact h.seen_le call mem
        · exact h.seen_le c hc
      checked := fun c hc live => by
        rcases mem_set hc with rfl | hc
        · exact h.checked call mem unreturned
        · exact h.checked c hc live
      recorded := .inr (.inl ⟨_, mem_set_self there, .inr ⟨eventId, rfl⟩⟩) }

/-- The landing is recorded, and the call returns. -/
theorem Sound.record {s : Sends} (h : Sound s) {i : ℕ} {call : Call}
    (there : s.calls[i]? = some call) {eventId : String} (at_ : call.stage = .landed eventId) :
    Sound { s.move i call (.returned (.ok eventId)) with
      reactions := s.reactions.recordSent s.now } := by
  have mem := List.mem_of_getElem? there
  have unreturned : call.stage.over = false := by rw [at_]; rfl
  exact
    { past := h.past
      spaced := h.spaced
      calls := fun c hc => by
        rcases mem_set hc with rfl | hc
        · exact ⟨fun _ _ at_ => (nomatch at_), fun _ => .inr ⟨eventId, rfl⟩⟩
        · exact h.calls c hc
      seen_le := fun c hc => by
        rcases mem_set hc with rfl | hc
        · exact h.seen_le call mem
        · exact h.seen_le c hc
      checked := fun c hc live => by
        rcases mem_set hc with rfl | hc
        · exact h.checked call mem unreturned
        · exact h.checked c hc live
      recorded := .inr (.inr fun l hl => ⟨s.now, rfl, h.past l hl, Nat.le_refl _⟩) }

/-- An attempt ends without a success. -/
theorem Sound.endAttempt {s : Sends} (h : Sound s) {i : ℕ} {call : Call}
    (there : s.calls[i]? = some call) {send : Sending} {budgetEnd : ℕ}
    (at_ : call.stage = .attempting send budgetEnd) {outcome : AttemptOutcome}
    (unanswered : ∀ eventId, outcome ≠ .answered (.ok eventId)) :
    Sound (s.endAttempt i call send outcome) := by
  have unsettled : ¬call.stage.Unrecorded := by
    rw [at_]
    rintro (⟨_, _, at_⟩ | ⟨_, at_⟩) <;> cases at_
  have quiet : ¬(Stage.judging send outcome).AwaitsLook := by
    rintro ⟨_, eventId, at_⟩
    cases at_
    exact unanswered eventId rfl
  have moved : Sound { s.move i call (.judging send outcome) with
      slot := { s.slot with inFlight := false } } :=
    (h.move there quiet unsettled (by rw [at_]; rfl)).slot rfl
  unfold Sends.endAttempt
  cases outcome with
  | elapsed => exact moved
  | answered answer =>
      cases answer with
      | error error => exact moved
      | ok eventId => exact absurd rfl (unanswered eventId)

/-- An attempt succeeds: the call had been checked after every landing, and holds the slot. -/
theorem Sound.succeed {s : Sends} (h : Sound s) {i : ℕ} {call : Call}
    (there : s.calls[i]? = some call) {send : Sending} {budgetEnd : ℕ}
    (at_ : call.stage = .attempting send budgetEnd) (latest : call.seen = s.landings.length)
    (holds : send.generation = s.slot.generation) (eventId : String) :
    Sound (s.endAttempt i call send (.answered (.ok eventId))) := by
  have mem := List.mem_of_getElem? there
  have late := h.checked call mem (by rw [at_]; rfl) latest
  have longer : ∀ c ∈ s.calls, c.seen ≤ s.landings.length := h.seen_le
  have same : (s.endAttempt i call send (.answered (.ok eventId))).slot.generation =
      s.slot.generation := rfl
  exact
    { past := fun l hl => by
        rcases List.mem_cons.mp hl with rfl | hl
        · exact Nat.le_refl _
        · exact h.past l hl
      spaced := List.pairwise_cons.mpr ⟨late, h.spaced⟩
      calls := fun c hc => by
        rcases mem_set hc with rfl | hc
        · refine ⟨fun send' eventId' at_ => ?_, fun _ => .inl (.inl ⟨send, eventId, rfl⟩)⟩
          cases at_
          exact holds
        · exact (h.calls c hc).of_generation same
      seen_le := fun c hc => by
        rcases mem_set hc with rfl | hc
        · exact (longer call mem).trans (Nat.le_succ _)
        · exact (longer c hc).trans (Nat.le_succ _)
      -- No call was checked after this landing yet.
      checked := fun c hc _ seen => by
        have fewer : c.seen ≤ s.landings.length := by
          rcases mem_set hc with rfl | hc
          · exact longer call mem
          · exact longer c hc
        have more : (s.now :: s.landings).length = s.landings.length + 1 := rfl
        have seen' : c.seen = (s.now :: s.landings).length := seen
        omega
      recorded := .inr (.inl ⟨_, mem_set_self there, .inl ⟨send, eventId, rfl⟩⟩) }

/-- What is prepared is prepared while joined, and not within the cooldown. -/
theorem prepared_late {s : Sends} {graphemes : String → List String} {session : Bool}
    {emoji name : String} {memberId membershipEventId : Option String} {content : Json}
    (h : s.prepareReaction graphemes session emoji name memberId membershipEventId = .ok content) :
    s.own ≠ none ∧ ∀ last ∈ s.reactions.lastSentMs, last ≤ s.now →
      last + s.reactions.config.sendCooldownMs ≤ s.now := by
  unfold Sends.prepareReaction at h
  split_ifs at h
  cases allowed : s.reactions.checkSendAllowed s.now with
  | error error => simp [allowed] at h
  | ok _ =>
      rw [allowed] at h
      constructor
      · intro left
        simp [Sends.ownRelationTarget, *] at h
      · intro last at_ past
        have sent : s.reactions.lastSentMs = some last := at_
        simp only [ReactionsState.checkSendAllowed, sent] at allowed
        split_ifs at allowed with _ early
        omega

/-- A call that is checked while every landing is recorded is late enough for the next. -/
theorem Sound.call {s : Sends} (h : Sound s) {graphemes : String → List String}
    (none_ : ∀ call ∈ s.calls, ¬call.stage.Unrecorded) (live session : Bool)
    (emoji name : String) (memberId membershipEventId : Option String) :
    Sound (s.sendReaction graphemes live session emoji name memberId membershipEventId) := by
  have added : ∀ (content : Option Json) (stage : Stage), ¬stage.AwaitsLook →
      (stage.over = false → ∀ l ∈ s.landings, l + s.reactions.config.sendCooldownMs ≤ s.now) →
      Sound (s.add content stage) := by
    intro content stage quiet late
    exact
      { past := h.past
        spaced := h.spaced
        calls := fun c hc => by
          rcases List.mem_append.mp hc with hc | hc
          · exact h.calls c hc
          · obtain rfl := List.mem_singleton.mp hc
            exact ⟨fun send eventId at_ => absurd ⟨send, eventId, at_⟩ quiet,
              fun succeeded => nomatch succeeded⟩
        seen_le := fun c hc => by
          rcases List.mem_append.mp hc with hc | hc
          · exact h.seen_le c hc
          · obtain rfl := List.mem_singleton.mp hc
            exact Nat.le_refl _
        checked := fun c hc live seen => by
          rcases List.mem_append.mp hc with hc | hc
          · exact h.checked c hc live seen
          · obtain rfl := List.mem_singleton.mp hc
            exact late live
        recorded := by
          rcases h.recorded with left | ⟨c, hc, settling⟩ | all
          · exact .inl left
          · exact absurd settling (none_ c hc)
          · exact .inr (.inr all) }
  unfold Sends.sendReaction
  split
  · exact added none _ (fun ⟨_, _, at_⟩ => nomatch at_) (fun live => nomatch live)
  · cases prepared : s.prepareReaction graphemes session emoji name memberId membershipEventId with
    | error error =>
        exact added none _ (fun ⟨_, _, at_⟩ => nomatch at_) (fun live => nomatch live)
    | ok content =>
        refine added (some content) _ (fun ⟨_, _, at_⟩ => nomatch at_) fun _ l hl => ?_
        obtain ⟨joined, late⟩ := prepared_late prepared
        rcases h.recorded with left | ⟨c, hc, settling⟩ | all
        · exact absurd left joined
        · exact absurd settling (none_ c hc)
        · obtain ⟨last, at_, after, past⟩ := all l hl
          exact (Nat.add_le_add_right after _).trans (late last at_ past)

theorem Sound.tick {s : Sends} (h : Sound s) (ms : ℕ) : Sound { s with now := s.now + ms } :=
  { h with
    past := fun l hl => (h.past l hl).trans (Nat.le_add_right _ _)
    checked := fun c hc live seen l hl =>
      (h.checked c hc live seen l hl).trans (Nat.le_add_right _ _)
    recorded := by
      rcases h.recorded with left | settling | all
      · exact .inl left
      · exact .inr (.inl settling)
      · refine .inr (.inr fun l hl => ?_)
        obtain ⟨last, at_, after, past⟩ := all l hl
        exact ⟨last, at_, after, past.trans (Nat.le_add_right _ _)⟩ }

theorem unsettled_of {stage : Stage} (h : match stage with
    | .prepared | .ready _ | .checked _ | .attempting _ _ | .resting _ _ _ => True
    | .judging _ _ | .landed _ | .returned _ | .dropped => False) :
    ¬stage.Unrecorded ∧ stage.over = false := by
  constructor
  · rintro (⟨_, _, rfl⟩ | ⟨_, rfl⟩) <;> exact h
  · cases stage <;> first | exact h.elim | rfl

theorem Sound.callStep {s t : Sends} (h : Sound s) {i : ℕ} {call : Call} {a : Action}
    (there : s.calls[i]? = some call) (caller : a.caller = some i) (fair : Undisturbed s a)
    (next : callStep s i call a = some t) : Sound t := by
  have mem := List.mem_of_getElem? there
  cases a with
  | tick ms => cases next
  | online => cases next
  | call live session emoji name memberId membershipEventId => cases next
  | cancelled => cases next
  | left => cases next
  | begin j =>
      simp only [ReactionSends.callStep] at next
      split at next
      · next at_ =>
          cases next
          obtain ⟨unsettled, live⟩ := @unsettled_of call.stage (by rw [at_]; trivial)
          exact (h.newSlot s.slot.register fair).move there (fun ⟨_, _, at_⟩ => nomatch at_)
            unsettled live
      · cases next
  | check j =>
      simp only [ReactionSends.callStep] at next
      split at next
      · next send at_ =>
          cases next
          obtain ⟨unsettled, live⟩ := @unsettled_of call.stage (by rw [at_]; trivial)
          exact h.look there (fun ⟨_, _, at_⟩ => nomatch at_) unsettled live
      · cases next
  | take j =>
      simp only [ReactionSends.callStep] at next
      split at next
      · next send at_ =>
          cases next
          obtain ⟨unsettled, live⟩ := @unsettled_of call.stage (by rw [at_]; trivial)
          unfold Sends.take
          split
          · exact h.move there (fun ⟨_, _, at_⟩ => nomatch at_) unsettled live
          · exact (h.move there (fun ⟨_, _, at_⟩ => nomatch at_) unsettled live).slot rfl
      · cases next
  | answered j answer =>
      simp only [ReactionSends.callStep] at next
      obtain rfl : j = i := Option.some.inj caller
      split at next
      · next send budgetEnd at_ =>
          cases next
          cases answer with
          | error error => exact h.endAttempt there at_ (fun _ other => nomatch other)
          | ok eventId =>
              obtain ⟨latest, holds⟩ := fair call there
              exact h.succeed there at_ latest (holds send budgetEnd at_) eventId
      · cases next
  | elapsed j =>
      simp only [ReactionSends.callStep] at next
      split at next
      · next send budgetEnd at_ =>
          split at next
          · cases next
            exact h.endAttempt there at_ (fun _ other => nomatch other)
          · cases next
      · cases next
  | judge j =>
      simp only [ReactionSends.callStep] at next
      split at next
      · next send outcome at_ =>
          cases next
          by_cases success : ∃ eventId, outcome = .answered (.ok eventId)
          · obtain ⟨eventId, rfl⟩ := success
            exact h.landed there at_
          · refine h.look there (judged_quiet s send outcome) ?_ (by rw [at_]; rfl)
            rw [at_]
            rintro (⟨_, eventId, same⟩ | ⟨_, same⟩)
            · cases same
              exact success ⟨eventId, rfl⟩
            · cases same
      · cases next
  | deadline j =>
      have overdue : ∀ {send : Sending}, ¬call.stage.Unrecorded → call.stage.over = false →
          s.overdue i call send = some t → Sound t := by
        intro send unsettled live next
        unfold Sends.overdue at next
        split at next
        · cases next
          exact h.move there (failed_quiet _) unsettled live
        · cases next
      simp only [ReactionSends.callStep] at next
      split at next
      · next send at_ =>
          obtain ⟨unsettled, live⟩ := @unsettled_of call.stage (by rw [at_]; trivial)
          exact overdue unsettled live next
      · next send _ _ at_ =>
          obtain ⟨unsettled, live⟩ := @unsettled_of call.stage (by rw [at_]; trivial)
          exact overdue unsettled live next
      · cases next
  | slept j =>
      simp only [ReactionSends.callStep] at next
      split at next
      · next send _ _ at_ =>
          obtain ⟨unsettled, live⟩ := @unsettled_of call.stage (by rw [at_]; trivial)
          split at next
          · cases next
            exact h.move there (fun ⟨_, _, at_⟩ => nomatch at_) unsettled live
          · cases next
      · cases next
  | poked j =>
      simp only [ReactionSends.callStep] at next
      split at next
      · next send wakeAt reports at_ =>
          cases next
          obtain ⟨unsettled, live⟩ := @unsettled_of call.stage (by rw [at_]; trivial)
          refine h.look there ?_ unsettled live
          split <;> exact fun ⟨_, _, at_⟩ => nomatch at_
      · cases next
  | record j =>
      simp only [ReactionSends.callStep] at next
      split at next
      · next eventId at_ =>
          cases next
          exact h.record there at_
      · cases next
  | drop j =>
      simp only [ReactionSends.callStep] at next
      obtain rfl : j = i := Option.some.inj caller
      have quiet : ¬Stage.dropped.AwaitsLook := fun ⟨_, _, at_⟩ => nomatch at_
      split at next
      · next send at_ =>
          cases next
          obtain ⟨unsettled, live⟩ := @unsettled_of call.stage (by rw [at_]; trivial)
          exact h.move there quiet unsettled live
      · next send _ _ at_ =>
          cases next
          obtain ⟨unsettled, live⟩ := @unsettled_of call.stage (by rw [at_]; trivial)
          exact h.move there quiet unsettled live
      · next eventId at_ => exact absurd at_ (fair call there eventId)
      · next send _ at_ =>
          cases next
          obtain ⟨unsettled, live⟩ := @unsettled_of call.stage (by rw [at_]; trivial)
          exact (h.move there quiet unsettled live).slot rfl
      · cases next

theorem Sound.step {s t : Sends} {graphemes : String → List String} {a : Action} (h : Sound s)
    (fair : Undisturbed s a) (next : step graphemes s a = some t) : Sound t := by
  have own : (a.caller.bind fun i => (s.calls[i]?).bind fun call =>
      ReactionSends.callStep s i call a) = some t → Sound t := by
    intro next
    obtain ⟨i, caller, next⟩ := Option.bind_eq_some_iff.mp next
    obtain ⟨call, there, next⟩ := Option.bind_eq_some_iff.mp next
    exact h.callStep there caller fair next
  cases a with
  | tick ms =>
      cases next
      exact h.tick ms
  | online =>
      cases next
      exact { h with }
  | call live session emoji name memberId membershipEventId =>
      cases next
      exact h.call fair live session emoji name memberId membershipEventId
  | cancelled =>
      cases next
      exact h.newSlot _ fair
  | left =>
      cases next
      exact { h with recorded := .inl rfl }
  | _ => exact own next

theorem Sound.kept {s : Sends} (h : Sound s) : Kept s where
  spaced := h.spaced
  not_sent := fun call hc at_ => by
    cases succeeded : call.succeeded with
    | false => rfl
    | true =>
        rcases (h.calls call hc).told succeeded with (⟨_, _, now⟩ | ⟨_, now⟩) | ⟨_, now⟩
        all_goals
          rw [at_] at now
          cases now

/-- In every run of one participation whose steps leave a success to its call undisturbed, who
is told `NotSent` has had no attempt answered with success, and reactions land at least the
cooldown apart. -/
theorem reactions_kept (graphemes : String → List String) (s t : Sends) (actions : List Action)
    (calls : s.calls = []) (landings : s.landings = [])
    (fair : Admissible (step graphemes) Undisturbed s actions)
    (h : run (step graphemes) s actions = some t) : Kept t := by
  have start : Sound s :=
    { past := by simp [landings]
      spaced := by simp [landings]
      calls := by simp [calls]
      seen_le := by simp [calls]
      checked := by simp [calls]
      recorded := by simp [landings] }
  exact (run_invariant (fun _ _ _ sound ok next => Sound.step sound ok next) start fair h).kept

/-- A participation that has just joined, with the default cooldown. -/
def joinedNow : Sends where
  now := 0
  reactions := .new
  own := some "@us:x"
  slot := .empty
  onlineEpoch := 0
  calls := []
  landings := []

/-- One emoji, whatever it is trimmed to. -/
def oneEmoji (_ : String) : List String := ["👍"]

def thumbsUp : Action := .call true true "👍" "thumbsup" (some "us") (some "$m")

/-- The second call takes the slot while the first one's attempt is on its way; both land. -/
def atOnce : List Action :=
  [thumbsUp, .begin 0, .check 0, .take 0, thumbsUp, .begin 1, .tick 100,
    .answered 0 (.ok "$a"), .judge 0, .check 1, .take 1, .tick 100, .answered 1 (.ok "$b"),
    .judge 1, .record 1]

/-- The first call is told `NotSent` though its attempt was answered with success, and the two
reactions landed 100 ms apart, where the cooldown is 3 s. -/
theorem atOnce_not_kept : ∃ t, run (step oneEmoji) joinedNow atOnce = some t ∧
    t.landings = [200, 100] ∧ t.reactions.config.sendCooldownMs = 3000 ∧
    (∃ call ∈ t.calls, call.stage = .returned (.error (.reaction .notSent)) ∧
      call.succeeded = true) ∧ ¬Kept t := by
  refine ⟨_, rfl, rfl, rfl, ⟨_, List.mem_cons_self, rfl, rfl⟩, fun kept => ?_⟩
  exact absurd (kept.not_sent _ List.mem_cons_self rfl) (by decide)

/-- One call, which lands. -/
def alone : List Action :=
  [thumbsUp, .begin 0, .check 0, .take 0, .answered 0 (.ok "$a"), .judge 0, .record 0]

theorem alone_kept : ∃ t, run (step oneEmoji) joinedNow alone = some t ∧ Kept t := by
  refine ⟨_, rfl, reactions_kept oneEmoji joinedNow _ alone rfl rfl ?_ rfl⟩
  refine ⟨fun _ there => (nomatch there), ?_⟩
  rintro _ ⟨⟩
  refine ⟨?_, ?_⟩
  · rintro call there ⟨_, _, at_⟩
    obtain rfl := List.mem_singleton.mp there
    cases at_
  rintro _ ⟨⟩
  refine ⟨trivial, ?_⟩
  rintro _ ⟨⟩
  refine ⟨trivial, ?_⟩
  rintro _ ⟨⟩
  refine ⟨?_, ?_⟩
  · rintro _ ⟨⟩
    refine ⟨rfl, fun send budgetEnd at_ => ?_⟩
    cases at_
    rfl
  rintro _ ⟨⟩
  refine ⟨trivial, ?_⟩
  rintro _ ⟨⟩
  exact ⟨trivial, fun _ _ => trivial⟩

end MatrixRtc.ReactionSends

import MatrixRtc.Outboxes
import MatrixRtc.StepRuns

/-!
# A send of the outbox in time

One send of a slot from its start to its result, as its timers and the pokes of the outbox
drive it. What the code does between two awaits takes no time, and a timer does not fire late;
of what is ready at one instant a `select!` may take any. Signalling health is left out: a
report of the host that it is online may come at any time.
-/
namespace MatrixRtc.TimedSends
open HostAnswers Outboxes

/-- An attempt, how many online reports there were when it started, and how it failed: without
an answer, or with an error. -/
structure Attempt where
  startedAt : ℕ
  reports : ℕ
  failure : Option (Option CommandError)
deriving DecidableEq

/-- Where `run` awaits: the slot, an attempt's outcome, or the next attempt; or how and when it
returned. `due` is when the sleep of the pause fires, and `last` says that it is the
deadline's. -/
inductive Stage where
  | waiting
  | attempting (budgetEnd : ℕ)
  | resting (wakeAt reports due : ℕ) (last : Bool)
  | resolved (at_ : ℕ) (result : Except SendFailure String)

/-- `poked` says that the poke changed since the send last looked. `log` has the attempts of
this send, from the newest on. -/
structure Send where
  now : ℕ
  slot : Slot
  poked : Bool
  onlineEpoch : ℕ
  generation : ℕ
  policy : SendPolicy
  backoff : ℕ
  last : Option CommandError
  stage : Stage
  log : List Attempt

inductive Action where
  | tick (ms : ℕ)
  | superseded
  | cancelled
  | taken
  | freed
  | online
  | poke
  | deadline
  | answered (answer : Except CommandError String)
  | elapsed
  | slept
  | poked

namespace Send
variable (s : Send)

def resolve (result : Except SendFailure String) : Send :=
  { s with stage := .resolved s.now result }

/-- The attempt starts; the slot has one in flight. -/
def begin : Send :=
  { s with
    slot := { s.slot with inFlight := true }
    stage := .attempting (s.now + s.policy.budget s.now)
    log := ⟨s.now, s.onlineEpoch, none⟩ :: s.log }

/-- `claim`, and the wait for the slot or the attempt that follows. -/
def claim : Send :=
  match s.slot.ended s.generation with
  | some failure => s.resolve (.error failure)
  | none => if s.slot.inFlight then { s with stage := .waiting } else s.begin

/-- The head of the pause's loop: the sleep is the deadline's where that is not later. -/
def rest (wakeAt reports : ℕ) : Send :=
  let untilWake := wakeAt - s.now
  match s.policy.deadline with
  | some deadline =>
      if deadline - s.now ≤ untilWake then
        { s with stage := .resting wakeAt reports (s.now + (deadline - s.now)) true }
      else { s with stage := .resting wakeAt reports (s.now + untilWake) false }
  | none => { s with stage := .resting wakeAt reports (s.now + untilWake) false }

/-- The newest attempt failed. -/
def fail (error : Option CommandError) : Send :=
  match s.log with
  | [] => s
  | attempt :: earlier => { s with log := { attempt with failure := some error } :: earlier }

end Send

/-- The error an attempt was answered with. -/
def errorOf : AttemptOutcome → Option CommandError
  | .answered (.ok _) => none
  | .answered (.error error) => some error
  | .elapsed => none

namespace Send
variable (s : Send)

/-- What follows an attempt: the slot is free again, which pokes this send too. -/
def finish (outcome : AttemptOutcome) : Send :=
  let s := { s with slot := { s.slot with inFlight := false }, poked := true }
  match s.slot.ended s.generation with
  | some failure => s.resolve (.error failure)
  | none =>
      match judge s.policy s.backoff s.now s.last outcome with
      | .done result => s.resolve result
      | .retry delay last =>
          ({ s with last := last, backoff := min (s.backoff * 2) backoffMax }.fail
            (errorOf outcome)).rest (s.now + delay) s.onlineEpoch

/-- How long time may go on before the send does. -/
def untilDue : Option ℕ :=
  match s.stage with
  | .waiting => s.policy.deadline
  | .attempting budgetEnd => some budgetEnd
  | .resting _ _ due _ => some due
  | .resolved _ _ => none

def isAttempting : Bool :=
  match s.stage with
  | .attempting _ => true
  | .waiting | .resting _ _ _ _ | .resolved _ _ => false

end Send

/-- A send of `policy`, whose deadline is `within` its start, as it first claims its slot. -/
def start (now onlineEpoch generation : ℕ) (slot : Slot) (within : Option ℕ)
    (policy : SendPolicy) : Send :=
  ({ now := now, slot := slot, poked := false, onlineEpoch := onlineEpoch
     generation := generation, policy := { policy with deadline := within.map (now + ·) }
     backoff := backoffInitial, last := none, stage := .waiting, log := [] } : Send).claim

def step (s : Send) : Action → Option Send
  | .tick ms =>
      if s.untilDue.all (s.now + ms ≤ ·) then some { s with now := s.now + ms } else none
  | .superseded => some { s with slot := s.slot.register, poked := true }
  | .cancelled => some { s with slot := s.slot.cancel, poked := true }
  -- the attempts of the slot's other sends
  | .taken =>
      if s.slot.inFlight then none else some { s with slot := { s.slot with inFlight := true } }
  | .freed =>
      if s.slot.inFlight && !s.isAttempting then
        some { s with slot := { s.slot with inFlight := false }, poked := true }
      else none
  | .online => some { s with onlineEpoch := s.onlineEpoch + 1, poked := true }
  | .poke => some { s with poked := true }
  | .deadline =>
      match s.stage with
      | .waiting =>
          if s.policy.overdue s.now then some (s.resolve (.error (.deadlineElapsed s.last)))
          else none
      | .attempting _ | .resting _ _ _ _ | .resolved _ _ => none
  | .answered answer =>
      match s.stage with
      | .attempting _ => some (s.finish (.answered answer))
      | .waiting | .resting _ _ _ _ | .resolved _ _ => none
  | .elapsed =>
      match s.stage with
      | .attempting budgetEnd => if budgetEnd ≤ s.now then some (s.finish .elapsed) else none
      | .waiting | .resting _ _ _ _ | .resolved _ _ => none
  | .slept =>
      match s.stage with
      | .resting _ _ due last =>
          if due ≤ s.now then
            some (if last then s.resolve (.error (.deadlineElapsed s.last)) else s.claim)
          else none
      | .waiting | .attempting _ | .resolved _ _ => none
  | .poked =>
      if s.poked then
        let s := { s with poked := false }
        match s.stage with
        | .waiting => some s.claim
        | .resting wakeAt reports _ _ =>
            match s.slot.ended s.generation with
            | some failure => some (s.resolve (.error failure))
            | none =>
                some (if s.onlineEpoch ≠ reports then s.claim else s.rest wakeAt reports)
        | .attempting _ | .resolved _ _ => none
      else none

end MatrixRtc.TimedSends

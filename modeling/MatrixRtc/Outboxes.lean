import MatrixRtc.HostAnswers

/-!
# The outbox's send slots

One send owns a slot at a time: a newer one of the same kind supersedes it, a leave
cancels it, and at most one attempt of a slot is in flight. Each attempt's outcome
ends the send or has it retried after a delay. The slots are those of one
participation, its membership and its delayed leave. The source drops a slot with
the last send that counts on it; a send counts from its registration to its end, so
no send can tell the dropped slot from one that keeps its counters, as here.
Signalling health is left out.
-/
namespace MatrixRtc.Outboxes
open HostAnswers

/-- `ATTEMPT_TIMEOUT`, in milliseconds. -/
def attemptTimeout : ℕ := 30000

def backoffInitial : ℕ := 1000

def backoffMax : ℕ := 30000

inductive SendKind where
  | membership
  | delayedLeave
deriving DecidableEq, Repr

/-- How long a send may keep trying; the deadline is an instant here. -/
structure SendPolicy where
  deadline : Option ℕ
  retryTimedOut : Bool
  singleAttempt : Bool
deriving DecidableEq, Repr

/-- Retries until it lands, is superseded or is cancelled. -/
def SendPolicy.new : SendPolicy := ⟨none, true, false⟩

/-- One attempt, never retried. -/
def SendPolicy.single : SendPolicy := ⟨none, false, true⟩

def SendPolicy.until (p : SendPolicy) (deadline : ℕ) : SendPolicy :=
  { p with deadline := some deadline }

/-- How long an attempt started now is waited for. -/
def SendPolicy.budget (p : SendPolicy) (now : ℕ) : ℕ :=
  match p.deadline with
  | none => attemptTimeout
  | some deadline => min attemptTimeout (deadline - now)

/-- The deadline has passed. -/
def SendPolicy.overdue (p : SendPolicy) (now : ℕ) : Bool := p.deadline.any (· ≤ now)

theorem SendPolicy.overdue_mono {p : SendPolicy} {earlier later : ℕ} (le : earlier ≤ later)
    (h : p.overdue earlier = true) : p.overdue later = true := by
  obtain ⟨deadline, retryTimedOut, singleAttempt⟩ := p
  cases deadline with
  | none => exact h
  | some deadline =>
      simp only [SendPolicy.overdue, Option.any_some, decide_eq_true_eq] at h ⊢
      omega

theorem SendPolicy.timed_of_overdue {p : SendPolicy} {now : ℕ} (h : p.overdue now = true) :
    p.deadline.isSome = true :=
  Option.isSome_of_any h

theorem SendPolicy.budget_full_or_overdue (p : SendPolicy) (now : ℕ) :
    now + attemptTimeout ≤ now + p.budget now ∨ p.overdue (now + p.budget now) = true := by
  obtain ⟨deadline, retryTimedOut, singleAttempt⟩ := p
  cases deadline with
  | none => exact Or.inl (Nat.le_refl _)
  | some deadline =>
      simp only [SendPolicy.budget, SendPolicy.overdue, Option.any_some]
      by_cases full : attemptTimeout ≤ deadline - now
      · exact Or.inl (by omega)
      · refine Or.inr (decide_eq_true ?_)
        omega

inductive SendFailure where
  | refused (error : CommandError)
  | superseded
  | cancelled
  | deadlineElapsed (last : Option CommandError)
  | timedOut
  | failed (error : CommandError)
deriving DecidableEq, Repr

/-- As the error the caller would have had from a single send. -/
def SendFailure.intoCommandError : SendFailure → CommandError
  | refused error | failed error | deadlineElapsed (some error) => error
  | superseded => .backend (.new "superseded by a newer send of the same kind")
  | cancelled => .backend (.new "cancelled")
  | deadlineElapsed none => .backend (.new "not sent within its deadline")
  | timedOut => .backend (.new "the attempt timed out and may have landed")

structure Slot where
  generation : ℕ
  cancelledThrough : ℕ
  inFlight : Bool
deriving DecidableEq, Repr

namespace Slot

def empty : Slot := ⟨0, 0, false⟩

/-- A new send takes the slot, superseding any pending one. -/
def register (s : Slot) : Slot := { s with generation := s.generation + 1 }

/-- The pending send ends, cancelled. -/
def cancel (s : Slot) : Slot :=
  { s with cancelledThrough := s.generation, generation := s.generation + 1 }

/-- Why the send of this generation has ended, if it has. -/
def ended (s : Slot) (generation : ℕ) : Option SendFailure :=
  if s.generation = generation then none
  else if generation ≤ s.cancelledThrough then some .cancelled
  else some .superseded

@[simp] theorem register_generation (s : Slot) : s.register.generation = s.generation + 1 := rfl

@[simp] theorem register_inFlight (s : Slot) : s.register.inFlight = s.inFlight := rfl

@[simp] theorem cancel_generation (s : Slot) : s.cancel.generation = s.generation + 1 := rfl

@[simp] theorem cancel_inFlight (s : Slot) : s.cancel.inFlight = s.inFlight := rfl

@[simp] theorem ended_inFlight (s : Slot) (busy : Bool) (generation : ℕ) :
    ({ s with inFlight := busy } : Slot).ended generation = s.ended generation := rfl

theorem ended_register {s : Slot} {generation : ℕ} (bound : generation ≤ s.generation)
    (h : s.ended generation = some .cancelled) : s.register.ended generation = some .cancelled := by
  have newer : s.generation + 1 ≠ generation := by omega
  unfold ended at h
  split_ifs at h with current cancelled
  · simp [ended, register, newer, cancelled]
  · cases h

theorem ended_cancel {s : Slot} {generation : ℕ} (bound : generation ≤ s.generation) :
    s.cancel.ended generation = some .cancelled := by
  have newer : s.generation + 1 ≠ generation := by omega
  simp [ended, cancel, newer, bound]

theorem ended_not_refused {s : Slot} {generation : ℕ} {error : CommandError} :
    s.ended generation ≠ some (.refused error) := by
  unfold ended
  split_ifs <;> simp

theorem ended_eq_some {s : Slot} {generation : ℕ} {failure : SendFailure}
    (h : s.ended generation = some failure) : failure = .superseded ∨ failure = .cancelled := by
  unfold ended at h
  split_ifs at h
  · cases h
    exact Or.inr rfl
  · cases h
    exact Or.inl rfl

theorem ended_eq_none {s : Slot} {generation : ℕ} :
    s.ended generation = none ↔ s.generation = generation := by
  unfold ended
  split_ifs <;> simp_all

end Slot

/-- The slots of one participation, and the count of online reports. -/
structure Outbox where
  membership : Slot
  delayedLeave : Slot
  onlineEpoch : ℕ
deriving DecidableEq, Repr

namespace Outbox

def new : Outbox := ⟨.empty, .empty, 0⟩

def slot (o : Outbox) : SendKind → Slot
  | .membership => o.membership
  | .delayedLeave => o.delayedLeave

/-- The slot of one kind changed. -/
def update (o : Outbox) (kind : SendKind) (f : Slot → Slot) : Outbox :=
  match kind with
  | .membership => { o with membership := f o.membership }
  | .delayedLeave => { o with delayedLeave := f o.delayedLeave }

@[simp] theorem slot_update_self (o : Outbox) (kind : SendKind) (f : Slot → Slot) :
    (o.update kind f).slot kind = f (o.slot kind) := by
  cases kind <;> rfl

theorem slot_update_ne {o : Outbox} {kind other : SendKind} {f : Slot → Slot}
    (h : other ≠ kind) : (o.update kind f).slot other = o.slot other := by
  cases kind <;> cases other <;> first | rfl | exact absurd rfl h

@[simp] theorem ended_update_inFlight (o : Outbox) (kind kind' : SendKind) (busy : Bool) (g : ℕ) :
    ((o.update kind fun slot => { slot with inFlight := busy }).slot kind').ended g =
      (o.slot kind').ended g := by
  cases kind <;> cases kind' <;> rfl

/-- `Outbox::begin`: the slot taken for a new send. -/
def beginSend (o : Outbox) (kind : SendKind) : Outbox := o.update kind Slot.register

/-- `cancel_scope`: every pending send of the participation ends. -/
def cancelScope (o : Outbox) : Outbox :=
  { o with membership := o.membership.cancel, delayedLeave := o.delayedLeave.cancel }

@[simp] theorem slot_cancelScope (o : Outbox) (kind : SendKind) :
    o.cancelScope.slot kind = (o.slot kind).cancel := by
  cases kind <;> rfl

end Outbox

/-- What an attempt came to. -/
inductive AttemptOutcome where
  | answered (answer : Except CommandError String)
  | elapsed

/-- What becomes of the send after an attempt. -/
inductive Verdict where
  | done (result : Except SendFailure String)
  | retry (delay : ℕ) (last : Option CommandError)

/-- A rate limit's own delay, or the next backoff step. -/
def retryDelay (error : CommandError) (backoff : ℕ) : ℕ :=
  match error.backendError with
  | some e => if e.isRateLimited then e.retryAfterMs.getD backoff else backoff
  | none => backoff

/-- The outcome of an attempt under a policy, for a send that has not ended. -/
def judge (policy : SendPolicy) (backoff now : ℕ) (last : Option CommandError) :
    AttemptOutcome → Verdict
  | .answered (.ok value) => .done (.ok value)
  | .answered (.error error) =>
      if error.isPermanent then .done (.error (.refused error))
      else if policy.singleAttempt then .done (.error (.failed error))
      else .retry (retryDelay error backoff) (some error)
  | .elapsed =>
      if policy.overdue now then .done (.error (.deadlineElapsed last))
      else if policy.retryTimedOut then .retry backoff last
      else .done (.error .timedOut)

/-- Only an answer that is a success has a send succeed. -/
theorem judge_ok {policy : SendPolicy} {backoff now : ℕ} {last : Option CommandError}
    {outcome : AttemptOutcome} {value : String}
    (h : judge policy backoff now last outcome = .done (.ok value)) :
    outcome = .answered (.ok value) := by
  cases outcome with
  | elapsed =>
      simp only [judge] at h
      split_ifs at h <;> cases h
  | answered answer =>
      cases answer with
      | ok value' =>
          cases h
          rfl
      | error error =>
          simp only [judge] at h
          split_ifs at h <;> cases h

theorem judge_refused {policy : SendPolicy} {backoff now : ℕ} {last : Option CommandError}
    {outcome : AttemptOutcome} {error : CommandError}
    (h : judge policy backoff now last outcome = .done (.error (.refused error))) :
    outcome = .answered (.error error) := by
  cases outcome with
  | elapsed =>
      simp only [judge] at h
      split_ifs at h <;> cases h
  | answered answer =>
      cases answer with
      | ok value => cases h
      | error error' =>
          simp only [judge] at h
          split_ifs at h <;> cases h
          rfl

end MatrixRtc.Outboxes

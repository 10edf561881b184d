import MatrixRtc.TimedSends

/-!
# The deadline of a send, and the pace of its attempts

A send with a deadline is over by then, as its own timers stop at it. It also starts no attempt
at it, unless it is poked at that instant, or was given no time at all.
-/
namespace MatrixRtc.SendDeadlines
open HostAnswers Outboxes StepRuns TimedSends

/-- The backoff after `retries` retries. -/
def pace (retries : ℕ) : ℕ := min (backoffInitial * 2 ^ retries) backoffMax

/-- The delay stated for the retry after `retries` others: the server's, or the backoff. -/
def statedDelay (retries : ℕ) : Option CommandError → ℕ
  | some error => retryDelay error (pace retries)
  | none => pace retries

/-- After its newest attempt a send may start the next at `now`. -/
def Settled (now reports : ℕ) : List Attempt → Prop
  | [] => True
  | attempt :: earlier =>
      ∃ error ∈ attempt.failure,
        attempt.startedAt + statedDelay earlier.length error ≤ now ∨ attempt.reports < reports

/-- Between two attempts at least the stated delay passed, or an online report came. -/
def Paced : List Attempt → Prop
  | [] => True
  | attempt :: earlier => Settled attempt.startedAt attempt.reports earlier ∧ Paced earlier

def Stage.isResolved : Stage → Bool
  | .resolved _ _ => true
  | .waiting | .attempting _ | .resting _ _ _ _ => false

/-- The instant the send has come to, or returned at. -/
def reached (s : Send) : ℕ :=
  match s.stage with
  | .resolved at_ _ => at_
  | .waiting | .attempting _ | .resting _ _ _ _ => s.now

/-- No attempt starts at the deadline or later, the send is over by then, and its attempts are
paced. -/
structure Timely (s : Send) : Prop where
  early : ∀ deadline ∈ s.policy.deadline, ∀ attempt ∈ s.log, attempt.startedAt < deadline
  inTime : ∀ deadline ∈ s.policy.deadline, reached s ≤ deadline
  ends : ∀ deadline ∈ s.policy.deadline, Stage.isResolved s.stage = false → s.now = deadline →
    ∃ timer ∈ [Action.deadline, .elapsed, .slept], ∃ t ∈ step s timer,
      Stage.isResolved t.stage = true
  paced : Paced s.log

/-- Nothing has come since that would have a resting send retry at once. -/
def restful (s : Send) : Bool :=
  match s.stage with
  | .resting _ reports _ _ => s.onlineEpoch = reports
  | .waiting | .attempting _ | .resolved _ _ => false

/-- A poke that is taken at the deadline finds the send over, its slot taken, or nothing that
would have it retry at once. -/
def Unhurried (s : Send) (a : Action) : Prop :=
  match a with
  | .poked => s.policy.overdue s.now = true →
      (s.slot.ended s.generation).isSome = true ∨ s.slot.inFlight = true ∨ restful s = true
  | _ => True

instance (s : Send) (a : Action) : Decidable (Unhurried s a) := by
  unfold Unhurried
  split <;> infer_instance

/-- What is kept where the send awaits. -/
def Awaits (s : Send) : Prop :=
  match s.stage with
  | .waiting =>
      Settled s.now s.onlineEpoch s.log ∧ s.backoff = pace s.log.length ∧
        ∀ deadline ∈ s.policy.deadline, s.now ≤ deadline
  | .attempting budgetEnd =>
      ∃ attempt earlier, s.log = attempt :: earlier ∧ attempt.failure = none ∧
        attempt.startedAt ≤ s.now ∧ attempt.reports ≤ s.onlineEpoch ∧
        s.backoff = pace earlier.length ∧ s.now ≤ budgetEnd ∧
        ∀ deadline ∈ s.policy.deadline, budgetEnd ≤ deadline
  | .resting wakeAt reports due last =>
      (∃ attempt earlier, s.log = attempt :: earlier ∧ (∃ error ∈ attempt.failure,
        attempt.startedAt + statedDelay earlier.length error ≤ wakeAt) ∧
        attempt.reports ≤ reports) ∧
      reports ≤ s.onlineEpoch ∧ s.backoff = pace s.log.length ∧ s.now ≤ due ∧ due ≤ wakeAt ∧
        (∀ deadline ∈ s.policy.deadline, due ≤ deadline) ∧
        (last = false → wakeAt ≤ due ∧ ∀ deadline ∈ s.policy.deadline, wakeAt < deadline)
  | .resolved at_ _ => ∀ deadline ∈ s.policy.deadline, at_ ≤ deadline

structure Inv (s : Send) : Prop where
  early : ∀ deadline ∈ s.policy.deadline, ∀ attempt ∈ s.log, attempt.startedAt < deadline
  paced : Paced s.log
  awaits : Awaits s

section
variable {s t : Send} {now later reports others : ℕ} {log : List Attempt}

theorem Settled.mono (h : Settled now reports log) (le : now ≤ later) (more : reports ≤ others) :
    Settled later others log := by
  cases log with
  | nil => trivial
  | cons attempt earlier =>
      obtain ⟨error, failed, waited | reported⟩ := h
      · exact ⟨error, failed, .inl (Nat.le_trans waited le)⟩
      · exact ⟨error, failed, .inr (Nat.lt_of_lt_of_le reported more)⟩

theorem pace_succ (retries : ℕ) : min (pace retries * 2) backoffMax = pace (retries + 1) := by
  unfold pace
  rw [pow_succ, ← Nat.mul_assoc]
  generalize backoffInitial * 2 ^ retries = delay
  omega

/-- A retry is after the stated delay, and not of an attempt that ran into the deadline. -/
theorem judge_retry {policy : SendPolicy} {retries delay : ℕ} {last next : Option CommandError}
    {outcome : AttemptOutcome}
    (h : judge policy (pace retries) now last outcome = .retry delay next) :
    delay = statedDelay retries (errorOf outcome) := by
  cases outcome with
  | elapsed =>
      simp only [judge] at h
      split_ifs at h
      cases h
      rfl
  | answered answer =>
      cases answer with
      | ok value => cases h
      | error error =>
          simp only [judge] at h
          split_ifs at h
          cases h
          rfl

theorem judge_overdue {policy : SendPolicy} {backoff : ℕ} {last : Option CommandError}
    (over_ : policy.overdue now = true) :
    judge policy backoff now last .elapsed = .done (.error (.deadlineElapsed last)) := by
  rw [judge, if_pos over_]

theorem inv_resolve (result : Except SendFailure String)
    (early : ∀ deadline ∈ s.policy.deadline, ∀ attempt ∈ s.log, attempt.startedAt < deadline)
    (paced : Paced s.log) (inTime : ∀ deadline ∈ s.policy.deadline, s.now ≤ deadline) :
    Inv (s.resolve result) := ⟨early, paced, inTime⟩

theorem budgetEnd_le (policy : SendPolicy)
    (inTime : ∀ deadline ∈ policy.deadline, now ≤ deadline) :
    ∀ deadline ∈ policy.deadline, now + policy.budget now ≤ deadline := by
  intro deadline is_deadline
  have le := inTime deadline is_deadline
  have is_deadline : policy.deadline = some deadline := is_deadline
  unfold SendPolicy.budget
  rw [is_deadline]
  dsimp only
  omega

/-- A claim keeps what a send keeps, where it starts no attempt at the deadline. -/
theorem inv_claim
    (early : ∀ deadline ∈ s.policy.deadline, ∀ attempt ∈ s.log, attempt.startedAt < deadline)
    (paced : Paced s.log) (settled : Settled s.now s.onlineEpoch s.log)
    (backoff : s.backoff = pace s.log.length)
    (inTime : ∀ deadline ∈ s.policy.deadline, s.now ≤ deadline)
    (before : s.policy.overdue s.now = true →
      (s.slot.ended s.generation).isSome = true ∨ s.slot.inFlight = true) : Inv s.claim := by
  unfold Send.claim
  cases ended : s.slot.ended s.generation with
  | some failure => exact inv_resolve _ early paced inTime
  | none =>
      dsimp only
      split_ifs with busy
      · exact ⟨early, paced, settled, backoff, inTime⟩
      · have punctual (deadline : ℕ) (is_deadline : deadline ∈ s.policy.deadline) :
            s.now < deadline := by
          by_contra late
          have is_deadline : s.policy.deadline = some deadline := is_deadline
          have over_ : s.policy.overdue s.now = true := by
            rw [SendPolicy.overdue, is_deadline]
            exact decide_eq_true (Nat.not_lt.mp late)
          obtain has_ended | taken := before over_
          · rw [ended] at has_ended
            cases has_ended
          · exact busy taken
        refine ⟨fun deadline is_deadline => ?_, ⟨settled, paced⟩, _, _, rfl, rfl, Nat.le_refl _,
          Nat.le_refl _, backoff, Nat.le_add_right _ _, budgetEnd_le s.policy inTime⟩
        rw [Send.begin, List.forall_mem_cons]
        exact ⟨punctual deadline is_deadline, early deadline is_deadline⟩

/-- The pause after a failed attempt. -/
theorem inv_rest {wakeAt : ℕ}
    (early : ∀ deadline ∈ s.policy.deadline, ∀ attempt ∈ s.log, attempt.startedAt < deadline)
    (paced : Paced s.log)
    (failed : ∃ attempt earlier, s.log = attempt :: earlier ∧ (∃ error ∈ attempt.failure,
      attempt.startedAt + statedDelay earlier.length error ≤ wakeAt) ∧ attempt.reports ≤ reports)
    (seen : reports ≤ s.onlineEpoch) (backoff : s.backoff = pace s.log.length)
    (ahead : s.now ≤ wakeAt) (inTime : ∀ deadline ∈ s.policy.deadline, s.now ≤ deadline) :
    Inv (s.rest wakeAt reports) := by
  unfold Send.rest
  cases is_deadline : s.policy.deadline with
  | none =>
      refine ⟨early, paced, failed, seen, backoff, Nat.le_add_right _ _, ?_, ?_, fun _ => ⟨?_, ?_⟩⟩
      · omega
      · rw [is_deadline]
        exact fun _ is => nomatch is
      · omega
      · rw [is_deadline]
        exact fun _ is => nomatch is
  | some deadline =>
      have le := inTime deadline is_deadline
      dsimp only
      split_ifs with nearer
      · refine ⟨early, paced, failed, seen, backoff, Nat.le_add_right _ _, ?_, ?_,
          fun later => nomatch later⟩
        · omega
        · rw [is_deadline]
          rintro _ ⟨⟩
          omega
      · refine ⟨early, paced, failed, seen, backoff, Nat.le_add_right _ _, ?_, ?_,
          fun _ => ⟨?_, ?_⟩⟩
        · omega
        · rw [is_deadline]
          rintro _ ⟨⟩
          omega
        · omega
        · rw [is_deadline]
          rintro _ ⟨⟩
          omega

/-- What an attempt came to is kept. -/
theorem inv_finish {outcome : AttemptOutcome} {attempt : Attempt} {earlier : List Attempt}
    (early : ∀ deadline ∈ s.policy.deadline, ∀ attempt ∈ s.log, attempt.startedAt < deadline)
    (paced : Paced s.log) (is_log : s.log = attempt :: earlier) (started : attempt.startedAt ≤ s.now)
    (seen : attempt.reports ≤ s.onlineEpoch) (backoff : s.backoff = pace earlier.length)
    (inTime : ∀ deadline ∈ s.policy.deadline, s.now ≤ deadline) : Inv (s.finish outcome) := by
  unfold Send.finish
  dsimp only
  split
  · exact inv_resolve _ early paced inTime
  · split
    · exact inv_resolve _ early paced inTime
    · rename_i delay last judged
      rw [backoff] at judged
      have is_delay := judge_retry judged
      simp only [Send.fail, is_log]
      rw [is_log] at early paced
      refine inv_rest (fun deadline is_deadline => ?_) ⟨paced.1, paced.2⟩
        ⟨_, _, rfl, ⟨_, rfl, ?_⟩, seen⟩ (Nat.le_refl _) ?_ (Nat.le_add_right _ _) inTime
      · have earlier_early := early deadline is_deadline
        rw [List.forall_mem_cons] at earlier_early ⊢
        exact earlier_early
      · rw [is_delay]
        exact Nat.add_le_add_right started _
      · dsimp only
        rw [backoff, List.length_cons]
        exact pace_succ earlier.length

/-- Time goes on as far as the next timer. -/
theorem inv_tick (inv : Inv s) {ms : ℕ} (due : s.untilDue.all (s.now + ms ≤ ·) = true) :
    Inv { s with now := s.now + ms } := by
  obtain ⟨early, paced, awaits⟩ := inv
  refine ⟨early, paced, ?_⟩
  have le : s.now ≤ s.now + ms := Nat.le_add_right _ _
  unfold Send.untilDue at due
  unfold Awaits at awaits ⊢
  cases stage : s.stage with
  | waiting =>
      simp only [stage] at awaits due ⊢
      obtain ⟨settled, backoff, -⟩ := awaits
      refine ⟨settled.mono le (Nat.le_refl _), backoff, fun deadline is_deadline => ?_⟩
      have is_deadline : s.policy.deadline = some deadline := is_deadline
      rw [is_deadline, Option.all_some, decide_eq_true_eq] at due
      exact due
  | attempting budgetEnd =>
      simp only [stage, Option.all_some, decide_eq_true_eq] at awaits due ⊢
      obtain ⟨attempt, earlier, is_log, out, started, seen, backoff, -, inTime⟩ := awaits
      exact ⟨attempt, earlier, is_log, out, Nat.le_trans started le, seen, backoff, due, inTime⟩
  | resting wakeAt reports until_ last =>
      simp only [stage, Option.all_some, decide_eq_true_eq] at awaits due ⊢
      obtain ⟨failed, seen, backoff, -, rest⟩ := awaits
      exact ⟨failed, seen, backoff, due, rest⟩
  | resolved at_ result =>
      simp only [stage] at awaits ⊢
      exact awaits

theorem inv_online (inv : Inv s) :
    Inv { s with onlineEpoch := s.onlineEpoch + 1, poked := true } := by
  obtain ⟨early, paced, awaits⟩ := inv
  refine ⟨early, paced, ?_⟩
  have le : s.onlineEpoch ≤ s.onlineEpoch + 1 := Nat.le_succ _
  unfold Awaits at awaits ⊢
  cases stage : s.stage with
  | waiting =>
      simp only [stage] at awaits ⊢
      exact ⟨awaits.1.mono (Nat.le_refl _) le, awaits.2⟩
  | attempting budgetEnd =>
      simp only [stage] at awaits ⊢
      obtain ⟨attempt, earlier, is_log, out, started, seen, rest⟩ := awaits
      exact ⟨attempt, earlier, is_log, out, started, Nat.le_trans seen le, rest⟩
  | resting wakeAt reports until_ last =>
      simp only [stage] at awaits ⊢
      obtain ⟨failed, seen, rest⟩ := awaits
      exact ⟨failed, Nat.le_trans seen le, rest⟩
  | resolved at_ result =>
      simp only [stage] at awaits ⊢
      exact awaits

/-- A poke that is taken. -/
theorem inv_poked (inv : Inv s) (unhurried : Unhurried s .poked) (stepped : step s .poked = some t) :
    Inv t := by
  obtain ⟨early, paced, awaits⟩ := inv
  rw [step] at stepped
  split_ifs at stepped
  unfold Awaits at awaits
  unfold Unhurried restful at unhurried
  cases stage : s.stage with
  | waiting =>
      simp only [stage] at awaits unhurried stepped
      cases stepped
      exact inv_claim early paced awaits.1 awaits.2.1 awaits.2.2 fun over_ => by
        obtain ended | busy | none_ := unhurried over_
        · exact .inl ended
        · exact .inr busy
        · cases none_
  | resting wakeAt reports due last =>
      simp only [stage] at awaits unhurried stepped
      obtain ⟨⟨attempt, earlier, is_log, ⟨error, failed, waited⟩, older⟩, seen, backoff, ahead,
        due_le, inTime, -⟩ := awaits
      have before (deadline : ℕ) (is_deadline : deadline ∈ s.policy.deadline) : s.now ≤ deadline :=
        Nat.le_trans ahead (inTime deadline is_deadline)
      cases ended : s.slot.ended s.generation with
      | some failure =>
          simp only [ended] at stepped
          cases stepped
          exact inv_resolve _ early paced before
      | none =>
          simp only [ended] at stepped
          cases stepped
          split_ifs with moved
          · refine inv_claim early paced ?_ backoff before fun over_ => ?_
            · have newer : attempt.reports < s.onlineEpoch := by omega
              change Settled s.now s.onlineEpoch s.log
              rw [is_log]
              exact ⟨error, failed, .inr newer⟩
            · obtain has_ended | busy | same := unhurried over_
              · exact .inl has_ended
              · exact .inr busy
              · exact absurd (of_decide_eq_true same) moved
          · exact inv_rest early paced ⟨attempt, earlier, is_log, ⟨error, failed, waited⟩, older⟩
              seen backoff (Nat.le_trans ahead due_le) before
  | attempting budgetEnd =>
      simp only [stage] at stepped
      cases stepped
  | resolved at_ result =>
      simp only [stage] at stepped
      cases stepped

theorem inv_step {a : Action} (inv : Inv s) (unhurried : Unhurried s a) (stepped : step s a = some t) :
    Inv t := by
  cases a with
  | tick ms =>
      rw [step] at stepped
      split_ifs at stepped with due
      cases stepped
      exact inv_tick inv due
  | superseded =>
      cases stepped
      exact ⟨inv.early, inv.paced, inv.awaits⟩
  | cancelled =>
      cases stepped
      exact ⟨inv.early, inv.paced, inv.awaits⟩
  | taken =>
      rw [step] at stepped
      split_ifs at stepped
      cases stepped
      exact ⟨inv.early, inv.paced, inv.awaits⟩
  | freed =>
      rw [step] at stepped
      split_ifs at stepped
      cases stepped
      exact ⟨inv.early, inv.paced, inv.awaits⟩
  | online =>
      cases stepped
      exact inv_online inv
  | poke =>
      cases stepped
      exact ⟨inv.early, inv.paced, inv.awaits⟩
  | deadline =>
      obtain ⟨early, paced, awaits⟩ := inv
      unfold Awaits at awaits
      rw [step] at stepped
      split at stepped
      · rename_i stage
        simp only [stage] at awaits
        split_ifs at stepped
        cases stepped
        exact inv_resolve _ early paced awaits.2.2
      all_goals cases stepped
  | answered answer =>
      obtain ⟨early, paced, awaits⟩ := inv
      unfold Awaits at awaits
      rw [step] at stepped
      split at stepped
      · rename_i budgetEnd stage
        simp only [stage] at awaits
        cases stepped
        obtain ⟨attempt, earlier, is_log, -, started, seen, backoff, ahead, inTime⟩ := awaits
        exact inv_finish early paced is_log started seen backoff fun deadline is_deadline =>
          Nat.le_trans ahead (inTime deadline is_deadline)
      all_goals cases stepped
  | elapsed =>
      obtain ⟨early, paced, awaits⟩ := inv
      unfold Awaits at awaits
      rw [step] at stepped
      split at stepped
      · rename_i budgetEnd stage
        simp only [stage] at awaits
        split_ifs at stepped
        cases stepped
        obtain ⟨attempt, earlier, is_log, -, started, seen, backoff, ahead, inTime⟩ := awaits
        exact inv_finish early paced is_log started seen backoff fun deadline is_deadline =>
          Nat.le_trans ahead (inTime deadline is_deadline)
      all_goals cases stepped
  | slept =>
      obtain ⟨early, paced, awaits⟩ := inv
      unfold Awaits at awaits
      rw [step] at stepped
      split at stepped
      · rename_i wakeAt reports due last stage
        simp only [stage] at awaits
        split_ifs at stepped with fired ends
        · cases stepped
          obtain ⟨-, -, -, ahead, -, inTime, -⟩ := awaits
          exact inv_resolve _ early paced fun deadline is_deadline =>
            Nat.le_trans ahead (inTime deadline is_deadline)
        · cases stepped
          obtain ⟨⟨attempt, earlier, is_log, ⟨error, failed, waited⟩, older⟩, seen, backoff, ahead,
            due_le, inTime, woken⟩ := awaits
          obtain ⟨wake_le, before⟩ := woken (Bool.of_not_eq_true ends)
          refine inv_claim early paced ?_ backoff (fun deadline is_deadline =>
            Nat.le_trans ahead (inTime deadline is_deadline)) fun over_ => ?_
          · rw [is_log]
            exact ⟨error, failed, .inl (by omega)⟩
          · obtain ⟨deadline, is_deadline⟩ :=
              Option.isSome_iff_exists.mp (SendPolicy.timed_of_overdue over_)
            have later := before deadline is_deadline
            rw [SendPolicy.overdue, is_deadline, Option.any_some, decide_eq_true_eq] at over_
            omega
      all_goals cases stepped
  | poked => exact inv_poked inv unhurried stepped

end

section
variable {s : Send}

/-- At the deadline the timer of the await there is ends the send. -/
theorem ends_at_deadline (inv : Inv s) {deadline : ℕ} (is_deadline : s.policy.deadline = some deadline)
    (running : Stage.isResolved s.stage = false) (now : s.now = deadline) :
    ∃ timer ∈ [Action.deadline, .elapsed, .slept], ∃ t ∈ step s timer,
      Stage.isResolved t.stage = true := by
  have over_ : s.policy.overdue s.now = true := by
    rw [SendPolicy.overdue, is_deadline]
    exact decide_eq_true (Nat.le_of_eq now.symm)
  have awaits := inv.awaits
  unfold Awaits at awaits
  cases stage : s.stage with
  | waiting =>
      refine ⟨.deadline, by simp, s.resolve (.error (.deadlineElapsed s.last)), ?_, rfl⟩
      simp [step, stage, over_]
  | attempting budgetEnd =>
      simp only [stage] at awaits
      obtain ⟨-, -, -, -, -, -, -, -, inTime⟩ := awaits
      have ended : budgetEnd ≤ s.now := now ▸ inTime deadline is_deadline
      refine ⟨.elapsed, by simp, s.finish .elapsed, ?_, ?_⟩
      · simp [step, stage, ended]
      · unfold Send.finish
        dsimp only
        split
        · rfl
        · rw [judge_overdue over_]
          rfl
  | resting wakeAt reports due last =>
      simp only [stage] at awaits
      obtain ⟨-, -, -, ahead, due_le, inTime, woken⟩ := awaits
      have le := inTime deadline is_deadline
      cases last with
      | true =>
          refine ⟨.slept, by simp, s.resolve (.error (.deadlineElapsed s.last)), ?_, rfl⟩
          have fired : due ≤ s.now := now ▸ le
          simp [step, stage, fired]
      | false =>
          obtain ⟨-, before⟩ := woken rfl
          have later := before deadline is_deadline
          omega
  | resolved at_ result =>
      rw [stage] at running
      cases running

theorem Inv.timely (inv : Inv s) : Timely s where
  early := inv.early
  inTime deadline is_deadline := by
    have awaits := inv.awaits
    unfold Awaits at awaits
    unfold reached
    cases stage : s.stage with
    | waiting =>
        simp only [stage] at awaits ⊢
        exact awaits.2.2 deadline is_deadline
    | attempting budgetEnd =>
        simp only [stage] at awaits ⊢
        obtain ⟨-, -, -, -, -, -, -, ahead, inTime⟩ := awaits
        exact Nat.le_trans ahead (inTime deadline is_deadline)
    | resting wakeAt reports due last =>
        simp only [stage] at awaits ⊢
        obtain ⟨-, -, -, ahead, -, inTime, -⟩ := awaits
        exact Nat.le_trans ahead (inTime deadline is_deadline)
    | resolved at_ result =>
        simp only [stage] at awaits ⊢
        exact awaits deadline is_deadline
  ends _ is_deadline running now := ends_at_deadline inv is_deadline running now
  paced := inv.paced

end

/-- A send that is rate limited, and one that is tried again as the host comes online. -/
def limitedThenOnline : List Action :=
  [.answered (.error (.backend ⟨some "M_LIMIT_EXCEEDED", some 429, some 2500, false, "slow down"⟩)),
    .poked, .tick 2500, .slept, .tick 100, .online, .answered (.ok "$sent")]

/-- The first attempt fails, and the host comes online at the deadline. -/
def onlineAtDeadline : List Action :=
  [.answered (.error (.backend (.new "offline"))), .poked, .tick 1000, .online, .poked]

end MatrixRtc.SendDeadlines

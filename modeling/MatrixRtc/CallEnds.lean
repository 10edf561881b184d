import MatrixRtc.CallStatuses

/-!
# Why a call is said to have ended

The first end that is published stands. It is the one of what ended the participation where
nobody else publishes an end before the party that ended it has: a media loss is reported
after the leave it causes, and the core's own leave by a follower that reads of it.
-/
namespace MatrixRtc.CallEnds
open MemberEvents DirectCalls SessionEnds CallStatuses StepRuns

/-- The party that ended the participation is still to report it. -/
def Reporting (s : Call) : CallEnd → Prop
  | .connectionClosed reason message =>
      s.followLoss = .leaving reason message ∨ s.followLoss = .issued reason message
  | .slotClosed => s.feeding = true ∨ s.told = true
  | .left | .declined | .unanswered | .ringNotSent | .othersLeft | .empty => False

instance (s : Call) (c : CallEnd) : Decidable (Reporting s c) := by
  unfold Reporting
  split <;> infer_instance

/-- The call becomes `Ended` at most once, with the end of what ended the participation, and
has, unless that party is still to report it. -/
structure Right (s : Call) : Prop where
  once : (s.cell.published.filter CallStatus.isEnded).length ≤ 1
  caused : ∀ reason, s.cell.status = .ended reason → s.cause = some reason
  reported : ∀ reason ∈ s.cause, s.cell.status = .ended reason ∨ Reporting s reason

/-- The step would end the lifecycle. -/
def Ends (s : Call) (a : DirectCalls.Action) : Prop :=
  ∃ d ∈ s.direct, ∃ e ∈ DirectCalls.step d a, (endOf e.call.state).isSome

/-- Somebody was in a call that was picked up. -/
def met (d : DirectCalls.System) : Bool :=
  match d.call.state with
  | .inCall _ => d.call.otherUserSeen
  | .sending | .ringing _ _ | .ended _ => false

/-- The core has left, and the session's follower is still to end the session. -/
def AutoLeft (s : Call) : Prop := s.feeding = true ∨ s.told = true

/-- Where no end is published yet: a media loss is followed in a group call only, a slot does
not close under a DM call in which somebody was, no other end comes between the core's own
leave and its follower, and a host does not leave as if the slot had closed. -/
def Undisturbed (s : Call) (a : CallStatuses.Action) : Prop :=
  s.cell.inputs.ended = none →
    match a with
    | .hostLeaves reason => reason.code ≠ .slotClosed ∧ ¬ AutoLeft s
    | .lossFollowed => s.direct = none ∧ ¬ AutoLeft s
    | .slotCloses => s.members ≠ [] → ∀ d ∈ s.direct, met d = false
    | .direct action => AutoLeft s → ¬ Ends s action
    | .roster members => AutoLeft s → ¬ Ends s (.roster members)
    | _ => True

instance (s : Call) (a : DirectCalls.Action) : Decidable (Ends s a) :=
  inferInstanceAs (Decidable (∃ d ∈ s.direct, ∃ e ∈ DirectCalls.step d a,
    (endOf e.call.state).isSome))

instance (s : Call) : Decidable (AutoLeft s) :=
  inferInstanceAs (Decidable (s.feeding = true ∨ s.told = true))

instance (s : Call) (a : CallStatuses.Action) : Decidable (Undisturbed s a) := by
  unfold Undisturbed
  split <;> infer_instance

/-- `caused`, of the status there is. -/
def causedBy (s : Call) : Bool :=
  match s.cell.status with
  | .ended reason => s.cause = some reason
  | .connecting | .calling _ _ _ | .connected _ _ => true

theorem causedBy_iff {s : Call} :
    causedBy s = true ↔ ∀ reason, s.cell.status = .ended reason → s.cause = some reason := by
  unfold causedBy
  split
  · rename_i reason is_ended
    rw [is_ended, decide_eq_true_eq]
    constructor
    · rintro cause other ⟨⟩
      exact cause
    · intro caused
      exact caused reason rfl
  all_goals
    rename_i not_ended
    exact iff_of_true rfl fun reason is_ended => nomatch not_ended.symm.trans is_ended

instance (s : Call) : Decidable (Right s) :=
  decidable_of_iff
    ((s.cell.published.filter CallStatus.isEnded).length ≤ 1 ∧ causedBy s = true ∧
      ∀ reason ∈ s.cause, s.cell.status = .ended reason ∨ Reporting s reason)
    ⟨fun ⟨once, caused, reported⟩ => ⟨once, causedBy_iff.mp caused, reported⟩,
      fun h => ⟨h.once, causedBy_iff.mpr h.caused, h.reported⟩⟩

section
variable {i : Inputs} {c : CallStatusCell} {now : ℕ}

theorem ended_status (i : Inputs) (now : ℕ) : (i.status now).1.ended = i.ended := by
  unfold Inputs.status
  split
  · rfl
  · split <;> rfl

theorem status_of_ended {reason : CallEnd} (ended : i.ended = some reason) :
    (i.status now).2 = .ended reason := by
  rw [Inputs.status, ended]

theorem status_of_open (opened : i.ended = none) : (i.status now).2.isEnded = false := by
  rw [Inputs.status, opened]
  dsimp only
  split <;> rfl

/-- The status is that of the inputs, and was `Ended` as soon as they were. -/
structure Sound (c : CallStatusCell) : Prop where
  current : c.status ∈ c.published
  opened : c.inputs.ended = none → ∀ status ∈ c.published, status.isEnded = false
  closed : ∀ reason, c.inputs.ended = some reason → c.status = .ended reason ∧
    c.published.filter CallStatus.isEnded = [.ended reason]

theorem sound_fromInputs (i : Inputs) (now : ℕ) : Sound (.fromInputs i now) where
  current := List.mem_singleton.mpr rfl
  opened opened status there := by
    change (i.status now).1.ended = none at opened
    rw [ended_status] at opened
    rw [List.mem_singleton.mp there]
    exact status_of_open opened
  closed reason closed := by
    change (i.status now).1.ended = some reason at closed
    rw [ended_status] at closed
    have is_ended : (i.status now).2 = .ended reason := status_of_ended closed
    refine ⟨is_ended, ?_⟩
    change List.filter CallStatus.isEnded [(i.status now).2] = _
    rw [is_ended]
    rfl

theorem ended_update (c : CallStatusCell) (now : ℕ) (f : Inputs → Inputs) :
    (c.update now f).inputs.ended = (f c.inputs).ended := by
  unfold CallStatusCell.update
  rw [← ended_status (f c.inputs) now]
  dsimp only
  split_ifs <;> rfl

/-- An update keeps an end that is there. -/
theorem Sound.update (h : Sound c) (now : ℕ) {f : Inputs → Inputs}
    (keeps : ∀ reason, c.inputs.ended = some reason → (f c.inputs).ended = some reason) :
    Sound (c.update now f) := by
  have ended := ended_update c now f
  unfold CallStatusCell.update at ended ⊢
  generalize next : (f c.inputs).status now = after at ended ⊢
  obtain ⟨inputs, status⟩ := after
  have of_open (opened : (f c.inputs).ended = none) : status.isEnded = false := by
    have is_open : ((f c.inputs).status now).2.isEnded = false := status_of_open opened
    rwa [next] at is_open
  have of_closed {reason : CallEnd} (closed : (f c.inputs).ended = some reason) :
      status = .ended reason := by
    have is_closed : ((f c.inputs).status now).2 = .ended reason := status_of_ended closed
    rwa [next] at is_closed
  dsimp only at ended ⊢
  have still_open (opened : (f c.inputs).ended = none) : c.inputs.ended = none :=
    Option.eq_none_iff_forall_ne_some.mpr fun reason is => nomatch opened.symm.trans (keeps _ is)
  split_ifs at ended ⊢ with same
  · refine ⟨h.current, fun opened => ?_, fun reason closed => ?_⟩
    · exact h.opened (still_open (ended ▸ opened))
    · have is_closed := of_closed (ended ▸ closed)
      cases before : c.inputs.ended with
      | some end_ =>
          have kept := (keeps end_ before).symm.trans (ended ▸ closed)
          cases kept
          exact h.closed _ before
      | none =>
          have opened := h.opened before c.status h.current
          rw [← same, is_closed] at opened
          cases opened
  · refine ⟨List.mem_append_right _ (List.mem_singleton.mpr rfl), fun opened other there => ?_,
      fun reason closed => ?_⟩
    · have opened : (f c.inputs).ended = none := ended ▸ opened
      obtain there | there := List.mem_append.mp there
      · exact h.opened (still_open opened) other there
      · rw [List.mem_singleton.mp there]
        exact of_open opened
    · have is_closed := of_closed (ended ▸ closed)
      refine ⟨is_closed, ?_⟩
      cases before : c.inputs.ended with
      | some end_ =>
          have kept := (keeps end_ before).symm.trans (ended ▸ closed)
          cases kept
          exact absurd (is_closed.trans (h.closed _ before).1.symm) same
      | none =>
          have none_ := List.filter_eq_nil_iff.mpr fun other there =>
            Bool.eq_false_iff.mp (h.opened before other there)
          rw [List.filter_append, none_, is_closed]
          rfl

end

/-- What a call's end depends on; `over` says that its session's end is told, and `direct` how
the lifecycle of a DM call ended. -/
structure Standing where
  ended : Option CallEnd
  cause : Option CallEnd
  live : Bool
  over_ : Bool
  followLoss : LossFollower
  followDirect : DirectFollower
  feeding : Bool
  told : Bool
  leaving : Bool
  direct : Option (Option DirectCallEnd)

def standing (s : Call) : Standing :=
  { ended := s.cell.inputs.ended
    cause := s.cause
    live := s.sessionEnd.live
    over_ := s.sessionEnd.ended.isSome
    followLoss := s.followLoss
    followDirect := s.followDirect
    feeding := s.feeding
    told := s.told
    leaving := s.leaving
    direct := s.direct.map fun d => endOf d.call.state }

/-- A party is still to report the end, and nobody else will before: a media loss is a group
call's, and the core's own leave left the session live. -/
def Standing.Reports (x : Standing) : CallEnd → Prop
  | .connectionClosed reason message =>
      (x.followLoss = .leaving reason message ∨ x.followLoss = .issued reason message) ∧
        x.direct = none
  | .slotClosed => (x.feeding = true ∨ x.told = true) ∧ x.live = true
  | .left | .declined | .unanswered | .ringNotSent | .othersLeft | .empty => False

/-- What is published is of what ended the participation, which is published or is still to
be. -/
structure Lawful (x : Standing) : Prop where
  caused : ∀ reason, x.ended = some reason → x.cause = some reason
  reported : ∀ reason, x.cause = some reason → x.ended = some reason ∨ x.Reports reason
  quiet : x.cause = none →
    x.live = true ∧ x.followLoss = .waiting ∧ x.feeding = false ∧ x.told = false
  tells : ∀ reason, x.direct = some (some reason) → x.ended ≠ none
  leaves : x.leaving = true ∨ x.followDirect = .leaving ∨ x.over_ = true ∨
    (∃ reason message, x.followLoss = .leaving reason message ∨
      x.followLoss = .issued reason message) → x.live = false

namespace Lawful
variable {x : Standing}

theorem ended_or_group (h : Lawful x) (over_ : x.live = false) :
    x.ended ≠ none ∨ x.direct = none := by
  cases is_cause : x.cause with
  | none => cases over_.symm.trans (h.quiet is_cause).1
  | some reason =>
      obtain ended | reports := h.reported reason is_cause
      · exact .inl (ended ▸ Option.some_ne_none reason)
      · cases reason with
        | connectionClosed => exact .inr reports.2
        | slotClosed => cases over_.symm.trans reports.2
        | _ => exact reports.elim

/-- Nothing ended the participation yet, where no end is published of a session that is live
and has not been left. -/
theorem unblamed (h : Lawful x) (opened : x.ended = none) (live : x.live = true)
    (present : ¬ (x.feeding = true ∨ x.told = true)) : x.cause = none := by
  cases is_cause : x.cause with
  | none => rfl
  | some reason =>
      obtain ended | reports := h.reported reason is_cause
      · cases opened.symm.trans ended
      · cases reason with
        | connectionClosed reason message =>
            have over_ := h.leaves (.inr (.inr (.inr ⟨reason, message, reports.1⟩)))
            cases over_.symm.trans live
        | slotClosed => exact absurd reports.1 present
        | _ => exact reports.elim

end Lawful

/-- The end there is, or the lifecycle's. -/
def landed (ended : Option CallEnd) : Option DirectCallEnd → Option CallEnd
  | some reason => some (ended.getD (callEnd reason))
  | none => ended

theorem landed_of_ended {ended : Option CallEnd} (some_ : ended ≠ none)
    (reason : Option DirectCallEnd) : landed ended reason = ended := by
  cases ended with
  | none => exact absurd rfl some_
  | some end_ => cases reason <;> rfl

section
variable {s : Call} {x : Standing}

theorem ended_setDirect (i : Inputs) (state : DirectCallState) :
    (i.setDirect state).ended = landed i.ended (endOf state) := by
  cases state <;> rfl

theorem sound_onDirect {c : CallStatusCell} (h : Sound c) (now : ℕ) (state : DirectCallState) :
    Sound (c.onDirect now state) := by
  refine h.update now fun reason ended => ?_
  rw [ended_setDirect, landed_of_ended (ended ▸ Option.some_ne_none reason), ended]

theorem standing_setDirect (tells : ∀ reason, (standing s).direct = some (some reason) →
    (standing s).ended ≠ none) (d : DirectCalls.System) :
    standing (s.setDirect d) = { standing s with
      direct := some (endOf d.call.state)
      ended := landed (standing s).ended (endOf d.call.state) } := by
  unfold Call.setDirect
  split_ifs with same
  · obtain ⟨before, is_before, same⟩ := Option.map_eq_some_iff.mp same
    have ended : landed (standing s).ended (endOf d.call.state) = (standing s).ended := by
      cases is_end : endOf d.call.state with
      | none => rfl
      | some reason =>
          refine landed_of_ended (tells reason ?_) _
          rw [standing, is_before, Option.map_some, same, is_end]
    rw [ended]
    rfl
  · simp only [standing, CallStatusCell.onDirect, ended_update, ended_setDirect, Option.map_some]

theorem sound_setDirect (h : Sound s.cell) (d : DirectCalls.System) : Sound (s.setDirect d).cell := by
  unfold Call.setDirect
  split_ifs
  · exact h
  · exact sound_onDirect h s.now d.call.state

theorem standing_stepDirect (tells : ∀ reason, (standing s).direct = some (some reason) →
    (standing s).ended ≠ none) (d : DirectCalls.System) :
    standing (s.stepDirect d) = { standing s with
      direct := some (endOf d.call.state)
      ended := landed (standing s).ended (endOf d.call.state)
      cause := landed (standing s).cause (endOf d.call.state) } := by
  have set := standing_setDirect tells d
  have cause : (s.setDirect d).cause = s.cause := congrArg Standing.cause set
  unfold Call.stepDirect
  cases is_end : endOf d.call.state with
  | none =>
      rw [is_end] at set
      exact set
  | some reason =>
      rw [is_end] at set
      have blamed : standing ((s.setDirect d).blame (callEnd reason)) =
          { standing (s.setDirect d) with cause := landed s.cause (some reason) } := by
        rw [standing, Call.blame, cause]
        rfl
      exact blamed.trans (by rw [set]; rfl)

theorem sound_stepDirect (h : Sound s.cell) (d : DirectCalls.System) :
    Sound (s.stepDirect d).cell := by
  unfold Call.stepDirect
  split
  · exact sound_setDirect h d
  · exact sound_setDirect h d

/-- A step of the lifecycle that ends the call is what ended the participation, where the core
has not left before. -/
theorem Lawful.stepDirect (h : Lawful x) (dm : x.direct ≠ none) (reason : Option DirectCallEnd)
    (undisturbed : x.ended = none → reason.isSome → ¬ (x.feeding = true ∨ x.told = true)) :
    Lawful { x with
      direct := some reason, ended := landed x.ended reason, cause := landed x.cause reason } := by
  have group {r : ConnectionLossReason} {m : String} : ¬ x.Reports (.connectionClosed r m) :=
    fun reports => dm reports.2
  cases is_ended : x.ended with
  | some end_ =>
      have cause := h.caused end_ is_ended
      rw [landed_of_ended (Option.some_ne_none end_), cause,
        landed_of_ended (Option.some_ne_none end_)]
      exact
        { caused := fun _ is => is
          reported := fun _ is => .inl is
          quiet := fun none_ => nomatch none_
          tells := fun _ _ => Option.some_ne_none end_
          leaves := h.leaves }
  | none =>
      cases reason with
      | none =>
          refine ⟨fun _ is => (nomatch is), fun reason is => .inr ?_, h.quiet,
            fun _ is => (nomatch is), h.leaves⟩
          obtain ended | reports := h.reported reason is
          · cases is_ended.symm.trans ended
          · cases reason with
            | connectionClosed => exact absurd reports group
            | _ => exact reports
      | some reason =>
          have cause : x.cause = none := by
            cases is_cause : x.cause with
            | none => rfl
            | some other =>
                obtain ended | reports := h.reported other is_cause
                · cases is_ended.symm.trans ended
                · cases other with
                  | connectionClosed => exact absurd reports group
                  | slotClosed => exact absurd reports.1 (undisturbed is_ended rfl)
                  | _ => exact reports.elim
          rw [cause]
          exact
            { caused := fun _ is => is
              reported := fun _ is => .inl is
              quiet := fun none_ => nomatch none_
              tells := fun _ _ => Option.some_ne_none _
              leaves := h.leaves }

theorem Lawful.finish (h : Lawful x) (over_ : x.live = false) (dm : x.direct ≠ none)
    (reason : DirectCallEnd) :
    Lawful { x with
      direct := some (some reason), ended := landed x.ended (some reason) } := by
  have ended := (h.ended_or_group over_).resolve_right dm
  rw [landed_of_ended ended]
  refine ⟨h.caused, fun cause is => ?_, h.quiet, fun _ _ => ended, h.leaves⟩
  obtain now | reports := h.reported cause is
  · exact .inl now
  · cases cause with
    | connectionClosed => exact absurd reports.2 dm
    | slotClosed => cases over_.symm.trans reports.2
    | _ => exact reports.elim

end

/-- Where a call stands, and that its status says so. -/
structure Inv (s : Call) : Prop where
  sound : Sound s.cell
  lawful : Lawful (standing s)

section
variable {s t : Call}

theorem Inv.right (inv : Inv s) : Right s := by
  have status {reason : CallEnd} : s.cell.status = .ended reason ↔
      s.cell.inputs.ended = some reason := by
    constructor
    · intro is_ended
      cases ended : s.cell.inputs.ended with
      | none =>
          have opened := inv.sound.opened ended s.cell.status inv.sound.current
          rw [is_ended] at opened
          cases opened
      | some other =>
          cases (inv.sound.closed other ended).1.symm.trans is_ended
          rfl
    · intro ended
      exact (inv.sound.closed reason ended).1
  refine ⟨?_, fun reason is_ended => inv.lawful.caused reason (status.mp is_ended),
    fun reason is_cause => ?_⟩
  · cases ended : s.cell.inputs.ended with
    | none =>
        have none_ : s.cell.published.filter CallStatus.isEnded = [] :=
          List.filter_eq_nil_iff.mpr fun other there =>
            Bool.eq_false_iff.mp (inv.sound.opened ended other there)
        rw [none_]
        exact Nat.zero_le 1
    | some reason =>
        rw [(inv.sound.closed reason ended).2]
        exact Nat.le_refl 1
  · obtain ended | reports := inv.lawful.reported reason is_cause
    · exact .inl (status.mpr ended)
    · refine .inr ?_
      cases reason with
      | connectionClosed => exact reports.1
      | slotClosed => exact reports.1
      | _ => exact reports

theorem inv_start (now : ℕ) (members : List JoinedMembership) (direct : Option DirectCalls.System) :
    Inv (start now members direct) := by
  have fresh (ended : Option CallEnd) (lifecycle : Option (Option DirectCallEnd))
      (tells : ∀ reason, lifecycle = some (some reason) → ended ≠ none) :
      Lawful ⟨ended, ended, true, false, .waiting, .waiting, false, false, false, lifecycle⟩ :=
    { caused := fun _ is => is
      reported := fun _ is => .inl is
      quiet := fun _ => ⟨rfl, rfl, rfl, rfl⟩
      tells := tells
      leaves := by simp }
  cases direct with
  | none => exact ⟨sound_fromInputs (.new none) now, fresh none none fun _ is => nomatch is⟩
  | some d =>
      have ended : (start now members (some d)).cell.inputs.ended =
          landed none (endOf d.call.state) := by
        refine (ended_status _ now).trans ?_
        rw [ended_setDirect]
        rfl
      have cause : (start now members (some d)).cause = landed none (endOf d.call.state) := by
        change (endOf d.call.state).map callEnd = _
        cases endOf d.call.state <;> rfl
      refine ⟨sound_fromInputs _ now, ?_⟩
      rw [standing, ended, cause]
      refine fresh _ _ fun reason is => ?_
      have is_end : endOf d.call.state = some reason := Option.some.inj is
      rw [is_end]
      exact Option.some_ne_none _

theorem Inv.of_standing (inv : Inv s) (sound : Sound t.cell) (same : standing t = standing s) :
    Inv t := ⟨sound, same ▸ inv.lawful⟩

theorem Inv.finishLeft (inv : Inv s) (over_ : s.sessionEnd.live = false) : Inv s.finishLeft := by
  unfold Call.finishLeft
  cases direct : s.direct with
  | none => exact inv
  | some d =>
      dsimp only
      refine ⟨sound_setDirect inv.sound _, ?_⟩
      rw [standing_setDirect inv.lawful.tells]
      have dm : (standing s).direct ≠ none := by
        rw [standing, direct]
        exact Option.some_ne_none _
      have finished : ∃ reason, endOf d.call.finishLeft.state = some reason := by
        unfold DirectCall.finishLeft DirectCall.update
        cases state : d.call.state <;> simp [endOf, state]
      obtain ⟨reason, is_reason⟩ := finished
      rw [is_reason]
      exact inv.lawful.finish over_ dm reason

/-- A session that is over lets go of what it was to do. -/
theorem Inv.resting (inv : Inv s) {t : Call} (cell : t.cell = s.cell) (cause : t.cause = s.cause)
    (sessionEnd : t.sessionEnd = s.sessionEnd) (followLoss : t.followLoss = s.followLoss)
    (feeding : t.feeding = s.feeding) (told : t.told = s.told)
    (direct : t.direct = s.direct)
    (leaves : t.leaving = true ∨ t.followDirect = .leaving → s.sessionEnd.live = false) : Inv t := by
  have h := inv.lawful
  refine ⟨cell ▸ inv.sound, ?_⟩
  have same : standing t = { standing s with
      followDirect := t.followDirect, leaving := t.leaving } := by
    rw [standing, cell, cause, sessionEnd, followLoss, feeding, told, direct]
    rfl
  rw [same]
  refine ⟨h.caused, h.reported, h.quiet, h.tells, ?_⟩
  rintro (waits | waits | rest)
  · exact leaves (.inl waits)
  · exact leaves (.inr waits)
  · exact h.leaves (.inr (.inr rest))

theorem Lawful.of_published {x : Standing} {reason : CallEnd} (ended : x.ended = some reason)
    (cause : x.cause = some reason) (over_ : x.live = false) : Lawful x where
  caused _ is := cause.trans (ended.symm.trans is)
  reported _ is := .inl (ended.trans (cause.symm.trans is))
  quiet none_ := nomatch cause.symm.trans none_
  tells _ _ := ended ▸ Option.some_ne_none reason
  leaves _ := over_

theorem sound_onSessionEnded {c : CallStatusCell} (h : Sound c) (now : ℕ) (reason : LeaveReason) :
    Sound (c.onSessionEnded now reason) := by
  refine h.update now fun first ended => ?_
  rw [Inputs.finish, ended]
  rfl

theorem ended_endSession (s : Call) (reason : LeaveReason) (live : s.sessionEnd.live = true) :
    (s.endSession reason).cell.inputs.ended =
      some (s.cell.inputs.ended.getD (if reason.code = .slotClosed then .slotClosed else .left)) := by
  have ended := ended_update s.cell s.now
    (·.finish (if reason.code = .slotClosed then .slotClosed else .left))
  rw [Call.endSession, if_pos live]
  exact ended

theorem live_endSession (s : Call) (reason : LeaveReason) :
    (s.endSession reason).sessionEnd.live = false := by
  unfold Call.endSession
  split_ifs with live
  · exact live_endQuietly
  · exact Bool.of_not_eq_true live

theorem sound_endSession (h : Sound s.cell) (reason : LeaveReason) :
    Sound (s.endSession reason).cell := by
  unfold Call.endSession
  split_ifs
  · exact sound_onSessionEnded h s.now reason
  · exact h

/-- The end of a session that was live is the first, or another was published before. -/
theorem Inv.endSession (inv : Inv s) (reason : LeaveReason) (live : s.sessionEnd.live = true)
    (cell : t.cell = (s.endSession reason).cell)
    (sessionEnd : t.sessionEnd = (s.endSession reason).sessionEnd)
    (kept : ∀ first, s.cause = some first → t.cause = some first)
    (mine : s.cell.inputs.ended = none →
      t.cause = some (if reason.code = .slotClosed then .slotClosed else .left)) : Inv t := by
  refine ⟨cell ▸ sound_endSession inv.sound reason, ?_⟩
  have over_ : (standing t).live = false :=
    (congrArg SessionEnd.live sessionEnd).trans (live_endSession s reason)
  have ended : (standing t).ended = some (s.cell.inputs.ended.getD
      (if reason.code = .slotClosed then .slotClosed else .left)) := by
    rw [standing, cell, ended_endSession s reason live]
  cases before : s.cell.inputs.ended with
  | none =>
      rw [before] at ended
      exact .of_published ended (mine before) over_
  | some first =>
      rw [before] at ended
      exact .of_published ended (kept first (inv.lawful.caused first before)) over_

theorem mem_map_step {direct : Option DirectCalls.System} {a : DirectCalls.Action}
    {f : DirectCalls.System → Call}
    (h : (direct.bind fun d => DirectCalls.step d a).map f = some t) :
    ∃ d ∈ direct, ∃ e ∈ DirectCalls.step d a, f e = t := by
  obtain ⟨e, stepped, made⟩ := Option.map_eq_some_iff.mp h
  obtain ⟨d, is_direct, stepped⟩ := Option.bind_eq_some_iff.mp stepped
  exact ⟨d, is_direct, e, stepped, made⟩

theorem Inv.stepDirect (inv : Inv s) (d : DirectCalls.System) (dm : s.direct.isSome)
    (undisturbed : s.cell.inputs.ended = none → (endOf d.call.state).isSome → ¬ AutoLeft s) :
    Inv (s.stepDirect d) := by
  refine ⟨sound_stepDirect inv.sound d, ?_⟩
  rw [standing_stepDirect inv.lawful.tells]
  refine inv.lawful.stepDirect (fun none_ => ?_) _ undisturbed
  rw [Option.isSome_iff_exists] at dm
  obtain ⟨before, is_before⟩ := dm
  rw [standing, is_before] at none_
  cases none_

theorem Inv.publishMembers (inv : Inv s) (members : List JoinedMembership)
    (undisturbed : s.cell.inputs.ended = none → s.members ≠ members → AutoLeft s →
      ¬ Ends s (.roster members)) : Inv (s.publishMembers members) := by
  unfold Call.publishMembers
  split_ifs with same
  · exact inv
  · dsimp only
    split
    · rename_i e stepped
      obtain ⟨d, is_direct, stepped⟩ := Option.bind_eq_some_iff.mp stepped
      have shown : Inv { s with members := members } := inv.of_standing inv.sound rfl
      refine shown.stepDirect e (Option.isSome_iff_exists.mpr ⟨d, is_direct⟩) ?_
      intro opened ends left
      exact undisturbed opened same left ⟨d, is_direct, e, stepped, ends⟩
    · exact inv.of_standing inv.sound rfl

theorem cause_endSession (s : Call) (reason : LeaveReason) :
    (s.endSession reason).cause = s.cause := by
  unfold Call.endSession
  split_ifs <;> rfl

theorem sessionEnd_finishLeft (s : Call) : s.finishLeft.sessionEnd = s.sessionEnd := by
  unfold Call.finishLeft Call.setDirect
  split
  · split_ifs <;> rfl
  · rfl

theorem followLoss_finishLeft (s : Call) : s.finishLeft.followLoss = s.followLoss := by
  unfold Call.finishLeft Call.setDirect
  split
  · split_ifs <;> rfl
  · rfl

/-- The core left a session that is live, and no end is published yet. -/
theorem Lawful.slot_closed {x : Standing} (h : Lawful x) (opened : x.ended = none)
    (live : x.live = true) (left : x.feeding = true ∨ x.told = true) :
    x.cause = some .slotClosed := by
  cases is_cause : x.cause with
  | none =>
      obtain ⟨-, -, feeding, told⟩ := h.quiet is_cause
      rw [feeding, told] at left
      obtain left | left := left <;> cases left
  | some reason =>
      obtain ended | reports := h.reported reason is_cause
      · cases opened.symm.trans ended
      · cases reason with
        | slotClosed => rfl
        | connectionClosed reason message =>
            have over_ := h.leaves (.inr (.inr (.inr ⟨reason, message, reports.1⟩)))
            cases over_.symm.trans live
        | _ => exact reports.elim

/-- The end of the lifecycle by an empty roster. -/
theorem met_of_ends {s : Call} (ends : Ends s (.roster [])) :
    ∃ d ∈ s.direct, (endOf d.call.state).isSome ∨ met d = true := by
  obtain ⟨d, is_direct, e, stepped, ended⟩ := ends
  refine ⟨d, is_direct, ?_⟩
  cases stepped
  change (endOf (d.call.onRoster [] d.now).state).isSome = true at ended
  unfold DirectCall.onRoster DirectCall.update at ended
  cases state : d.call.state with
  | ended reason => exact .inl rfl
  | inCall since =>
      refine .inr ?_
      rw [met, state]
      by_contra unseen
      simp [state, endOf, unseen] at ended
  | sending => simp [state, endOf] at ended
  | ringing sentAtMs lifetimeMs => simp [state, endOf] at ended

/-- The core leaves on the closed slot. -/
theorem Inv.slotCloses (inv : Inv s) (undisturbed : Undisturbed s .slotCloses) :
    Inv (({ s with joined := false, feeding := true }.blame .slotClosed).publishMembers []) := by
  have h := inv.lawful
  have left : Inv ({ s with joined := false, feeding := true }.blame .slotClosed) := by
    refine ⟨inv.sound, ?_⟩
    change Lawful { standing s with
      feeding := true, cause := some ((standing s).cause.getD .slotClosed) }
    refine ⟨fun reason ended => ?_, fun reason is => ?_, fun none_ => (nomatch none_), h.tells,
      h.leaves⟩
    · change some ((standing s).cause.getD .slotClosed) = some reason
      rw [h.caused reason ended]
      rfl
    · cases is_cause : (standing s).cause with
      | none =>
          rw [is_cause] at is
          cases is
          exact .inr ⟨.inl rfl, (h.quiet is_cause).1⟩
      | some earlier =>
          rw [is_cause] at is
          cases is
          obtain ended | reports := h.reported earlier is_cause
          · exact .inl ended
          · refine .inr ?_
            cases earlier with
            | slotClosed => exact ⟨.inl rfl, reports.2⟩
            | connectionClosed reason message => exact reports
            | _ => exact reports
  refine left.publishMembers [] fun opened members _ ends => ?_
  obtain ⟨d, is_direct, ended | seen⟩ := met_of_ends ends
  · obtain ⟨reason, is_reason⟩ := Option.isSome_iff_exists.mp ended
    refine h.tells reason ?_ opened
    have is_direct : s.direct = some d := is_direct
    rw [standing, is_direct, Option.map_some, is_reason]
  · cases (undisturbed opened members d is_direct).symm.trans seen

/-- The follower of a media loss marks the session over. -/
theorem Inv.lossFollowed (inv : Inv s) {reason : ConnectionLossReason} {message : String}
    (live : s.sessionEnd.live = true) (undisturbed : Undisturbed s .lossFollowed)
    (over_ : LeaveReason) :
    Inv ({ s with
      sessionEnd := s.sessionEnd.endQuietly over_
      followLoss := .leaving reason message }.blame (.connectionClosed reason message)) := by
  have h := inv.lawful
  refine ⟨inv.sound, ?_⟩
  have ended_ : (s.sessionEnd.endQuietly over_).live = false := live_endQuietly
  cases ended : s.cell.inputs.ended with
  | some earlier =>
      refine .of_published ended ?_ ended_
      change some (s.cause.getD _) = some earlier
      have cause : s.cause = some earlier := h.caused earlier ended
      rw [cause]
      rfl
  | none =>
      obtain ⟨group, present⟩ := undisturbed ended
      have cause : s.cause = none := h.unblamed ended live present
      refine
        { caused := fun _ is => (nomatch ended.symm.trans is)
          reported := fun earlier is => .inr ?_
          quiet := fun none_ => (nomatch none_)
          tells := h.tells
          leaves := fun _ => ended_ }
      change some (s.cause.getD _) = some earlier at is
      rw [cause] at is
      cases is
      exact ⟨.inl rfl, Option.map_eq_none_iff.mpr group⟩

theorem Inv.loss_over (inv : Inv s) (waiting : s.followLoss = .waiting)
    (over_ : s.sessionEnd.live = false) : Inv { s with followLoss := .done } := by
  have h := inv.lawful
  refine ⟨inv.sound, h.caused, fun reason is => ?_, fun none_ => ?_, h.tells, fun _ => over_⟩
  · obtain ended | reports := h.reported reason is
    · exact .inl ended
    · refine .inr ?_
      cases reason with
      | connectionClosed =>
          obtain ⟨leaving | issued, -⟩ := reports
          · cases waiting.symm.trans leaving
          · cases waiting.symm.trans issued
      | _ => exact reports
  · cases over_.symm.trans (h.quiet none_).1

/-- The leave of a media loss is issued, and its end is still to be reported. -/
theorem Inv.loss_issued (inv : Inv s) {reason : ConnectionLossReason} {message : String}
    (leaving : s.followLoss = .leaving reason message) :
    Inv { s with joined := false, followLoss := .issued reason message } := by
  have h := inv.lawful
  have over_ : s.sessionEnd.live = false :=
    h.leaves (.inr (.inr (.inr ⟨reason, message, .inl leaving⟩)))
  refine ⟨inv.sound, h.caused, fun cause is => ?_, fun none_ => ?_, h.tells, fun _ => over_⟩
  · obtain ended | reports := h.reported cause is
    · exact .inl ended
    · refine .inr ?_
      cases cause with
      | connectionClosed =>
          obtain ⟨was | was, group⟩ := reports <;> cases leaving.symm.trans was
          exact ⟨.inr rfl, group⟩
      | _ => exact reports
  · cases over_.symm.trans (h.quiet none_).1

/-- The end of a media loss is reported. -/
theorem Inv.lossReported (inv : Inv s) {reason : ConnectionLossReason} {message : String}
    (issued : s.followLoss = .issued reason message) :
    Inv { s with
      cell := s.cell.connectionClosed s.now reason message, followLoss := .done } := by
  have h := inv.lawful
  have over_ : s.sessionEnd.live = false :=
    h.leaves (.inr (.inr (.inr ⟨reason, message, .inr issued⟩)))
  have told : (s.cell.connectionClosed s.now reason message).inputs.ended =
      some (s.cell.inputs.ended.getD (.connectionClosed reason message)) :=
    ended_update s.cell s.now _
  have sound : Sound (s.cell.connectionClosed s.now reason message) := by
    refine inv.sound.update s.now fun earlier ended => ?_
    rw [Inputs.finish, ended]
    rfl
  refine ⟨sound, .of_published told ?_ over_⟩
  cases ended : s.cell.inputs.ended with
  | some earlier => exact h.caused earlier ended
  | none =>
      change s.cause = some (.connectionClosed reason message)
      cases cause : s.cause with
      | none => cases issued.symm.trans (h.quiet cause).2.1
      | some earlier =>
          obtain published | reports := h.reported earlier cause
          · cases ended.symm.trans published
          · cases earlier with
            | connectionClosed =>
                obtain ⟨was | was, -⟩ := reports <;> cases issued.symm.trans was
                rfl
            | slotClosed => cases over_.symm.trans reports.2
            | _ => exact reports.elim

theorem Inv.updated (inv : Inv s) (f : Inputs → Inputs)
    (keeps : (f s.cell.inputs).ended = s.cell.inputs.ended) :
    Inv { s with cell := s.cell.update s.now f } := by
  refine inv.of_standing (inv.sound.update s.now fun _ ended => keeps.trans ended) ?_
  simp only [standing, ended_update, keeps]

theorem over_of_told (inv : Inv s) (told : s.sessionEnd.ended.isSome) :
    s.sessionEnd.live = false := inv.lawful.leaves (.inr (.inr (.inl told)))

theorem Inv.issued (inv : Inv s) (over_ : s.sessionEnd.live = false) : Inv s.beginLeave :=
  (inv.finishLeft over_).of_standing (inv.finishLeft over_).sound rfl

theorem inv_step {a : CallStatuses.Action} (inv : Inv s) (undisturbed : Undisturbed s a)
    (stepped : CallStatuses.step s a = some t) : Inv t := by
  have h := inv.lawful
  cases a with
  | tick ms =>
      cases stepped
      refine inv.of_standing inv.sound ?_
      simp only [standing, Option.map_map]
      rfl
  | connected =>
      cases stepped
      exact inv.updated _ rfl
  | degraded degraded =>
      cases stepped
      refine inv.updated _ ?_
      split <;> rfl
  | detached =>
      cases stepped
      exact inv.updated _ rfl
  | lost reason message =>
      cases stepped
      exact inv.of_standing ⟨inv.sound.current, inv.sound.opened, inv.sound.closed⟩ rfl
  | direct action =>
      rw [CallStatuses.step] at stepped
      split_ifs at stepped
      obtain ⟨d, is_direct, e, is_step, rfl⟩ := mem_map_step stepped
      refine inv.stepDirect e (Option.isSome_iff_exists.mpr ⟨d, is_direct⟩) ?_
      intro opened ends left
      exact undisturbed opened left ⟨d, is_direct, e, is_step, ends⟩
  | roster members =>
      rw [CallStatuses.step] at stepped
      split_ifs at stepped
      cases stepped
      exact inv.publishMembers members fun opened _ left => undisturbed opened left
  | hostLeaves reason =>
      rw [CallStatuses.step] at stepped
      split_ifs at stepped with live
      cases stepped
      have cause := cause_endSession s reason
      have ended : Inv ((s.endSession reason).blame .left) := by
        refine inv.endSession reason live rfl rfl (fun earlier is => ?_) fun opened => ?_
        · rw [Call.blame, cause, is]
          rfl
        · obtain ⟨code, present⟩ := undisturbed opened
          have unblamed : s.cause = none := h.unblamed opened live present
          rw [Call.blame, cause, unblamed, if_neg code]
          rfl
      exact ended.resting rfl rfl rfl rfl rfl rfl rfl fun _ => live_endSession s reason
  | hostIssues =>
      rw [CallStatuses.step] at stepped
      split_ifs at stepped with leaving
      cases stepped
      have over_ : s.sessionEnd.live = false := h.leaves (.inl (Bool.and_eq_true_iff.mp leaving).1)
      refine (inv.issued over_).resting rfl rfl rfl rfl rfl rfl rfl fun _ => ?_
      exact (congrArg _ (sessionEnd_finishLeft s)).trans over_
  | slotCloses =>
      rw [CallStatuses.step] at stepped
      split_ifs at stepped
      cases stepped
      exact inv.slotCloses undisturbed
  | announced =>
      rw [CallStatuses.step] at stepped
      split_ifs at stepped with feeding
      cases stepped
      refine ⟨inv.sound, h.caused, fun reason is => ?_, fun none_ => ?_, h.tells, h.leaves⟩
      · obtain ended | reports := h.reported reason is
        · exact .inl ended
        · refine .inr ?_
          cases reason with
          | slotClosed => exact ⟨.inr rfl, reports.2⟩
          | connectionClosed reason message => exact reports
          | _ => exact reports
      · cases feeding.symm.trans (h.quiet none_).2.2.1
  | autoFollowed =>
      rw [CallStatuses.step] at stepped
      split_ifs at stepped with told
      cases stepped
      by_cases live : s.sessionEnd.live = true
      · refine inv.endSession slotClosed live rfl rfl (fun earlier is => ?_) fun opened => ?_
        · exact (cause_endSession s slotClosed).trans is
        · exact (cause_endSession s slotClosed).trans (h.slot_closed opened live (.inr told))
      · have over_ := Bool.of_not_eq_true live
        rw [Call.endSession, if_neg live]
        refine ⟨inv.sound, h.caused, fun reason is => ?_, fun none_ => ?_, h.tells, h.leaves⟩
        · obtain ended | reports := h.reported reason is
          · exact .inl ended
          · refine .inr ?_
            cases reason with
            | slotClosed => cases over_.symm.trans reports.2
            | connectionClosed reason message => exact reports
            | _ => exact reports
        · cases over_.symm.trans (h.quiet none_).1
  | directFollows =>
      rw [CallStatuses.step] at stepped
      split at stepped
      · rename_i reason waiting ended
        have done : Inv { s with followDirect := .done } :=
          inv.resting rfl rfl rfl rfl rfl rfl rfl fun waits => h.leaves <| by
            obtain waits | waits := waits
            · exact .inl waits
            · cases waits
        split_ifs at stepped with left live
        · cases stepped
          exact done
        · cases stepped
          obtain ⟨d, is_direct, ended⟩ := Option.bind_eq_some_iff.mp ended
          have published : s.cell.inputs.ended ≠ none := by
            refine h.tells reason ?_
            rw [standing, is_direct, Option.map_some, ended]
          have over_ : Inv (s.endSession ⟨.leave, some (directCallEndStr reason)⟩) :=
            inv.endSession _ live rfl rfl
              (fun earlier is => (cause_endSession s _).trans is)
              fun opened => absurd opened published
          exact over_.resting rfl rfl rfl rfl rfl rfl rfl fun _ => live_endSession s _
        · cases stepped
          exact done
      · cases stepped
  | directSeesOver =>
      rw [CallStatuses.step] at stepped
      split_ifs at stepped with waits
      cases stepped
      have over_ := over_of_told inv waits.2.2
      refine (inv.finishLeft over_).resting rfl rfl rfl rfl rfl rfl rfl fun _ => ?_
      exact (congrArg _ (sessionEnd_finishLeft s)).trans over_
  | directLeaves =>
      rw [CallStatuses.step] at stepped
      split_ifs at stepped with leaving
      cases stepped
      have over_ : s.sessionEnd.live = false := h.leaves (.inr (.inl leaving.1))
      refine (inv.issued over_).resting rfl rfl rfl rfl rfl rfl rfl fun _ => ?_
      exact (congrArg _ (sessionEnd_finishLeft s)).trans over_
  | lossFollowed =>
      rw [CallStatuses.step] at stepped
      split at stepped
      · rename_i reason message waiting lost
        split_ifs at stepped with live
        · cases stepped
          exact inv.lossFollowed live undisturbed _
        · cases stepped
          exact inv.loss_over waiting (Bool.of_not_eq_true live)
      · cases stepped
  | lossSeesOver =>
      rw [CallStatuses.step] at stepped
      split_ifs at stepped with waits
      cases stepped
      exact inv.loss_over waits.1 (over_of_told inv waits.2)
  | lossLeaves =>
      rw [CallStatuses.step] at stepped
      cases leaving : s.followLoss with
      | leaving reason message =>
          simp only [leaving] at stepped
          split_ifs at stepped
          cases stepped
          have over_ : s.sessionEnd.live = false :=
            h.leaves (.inr (.inr (.inr ⟨reason, message, .inl leaving⟩)))
          exact (inv.finishLeft over_).loss_issued ((followLoss_finishLeft s).trans leaving)
      | waiting => simp [leaving] at stepped
      | issued reason message => simp [leaving] at stepped
      | done => simp [leaving] at stepped
  | lossReported =>
      rw [CallStatuses.step] at stepped
      cases issued : s.followLoss with
      | issued reason message =>
          simp only [issued] at stepped
          cases stepped
          exact inv.lossReported issued
      | waiting => simp [issued] at stepped
      | leaving reason message => simp [issued] at stepped
      | done => simp [issued] at stepped

end

/-- In every run without these races, what a call is said to have ended with is what ended
it, once. -/
theorem end_reported_is_cause (now : ℕ) (members : List JoinedMembership)
    (direct : Option DirectCalls.System) (as : List CallStatuses.Action)
    (undisturbed : Admissible CallStatuses.step Undisturbed (start now members direct) as) :
    Always CallStatuses.step Right (start now members direct) as :=
  always_of_admissible (fun _ _ _ inv undisturbed stepped => inv_step inv undisturbed stepped)
    (fun _ inv => inv.right) (inv_start now members direct) undisturbed

def mediaGivenUp : List CallStatuses.Action :=
  [.connected, .lost .budget "gone", .lossFollowed, .lossLeaves, .lossReported]

theorem end_reported_is_cause_lost :
    Always CallStatuses.step Right (start 0 [] none) mediaGivenUp :=
  end_reported_is_cause 0 [] none mediaGivenUp (by decide +kernel)

/-- The callee is in the call already. -/
def directSetup : DirectCalls.Setup :=
  let bob : JoinedMembership :=
    { roomId := "!dm", slotId := "m.call#ROOM", sender := "@bob", origin := .encrypted (some "BOB")
      stickyKey := "bob", memberId := "m-bob", membershipEventId := some "$bob"
      membershipTs := some 0, originServerTs := some 0, application := ⟨some "m.call", []⟩
      transports := [], canSubscribe := [] }
  { ownUserId := "@alice", ownDeviceId := "ALICE", callee := "@bob", members := [bob]
    lifetimeMs := 30000, now := 1 }

def directCall : Call := start 1 directSetup.members (some (DirectCalls.start directSetup))

/-- A media loss that is followed is not what a DM call is said to have ended with: its
lifecycle is over as `left` before the loss is reported. -/
theorem lost_direct_call_left :
    ¬ ∀ (now : ℕ) (members : List JoinedMembership) (direct : Option DirectCalls.System)
      (as : List CallStatuses.Action),
      Always CallStatuses.step Right (start now members direct) as := by
  intro all
  have right := all 1 directSetup.members (some (DirectCalls.start directSetup)) mediaGivenUp
  have wrong : ¬ Always CallStatuses.step Right directCall mediaGivenUp := by decide +kernel
  exact wrong right

end MatrixRtc.CallEnds

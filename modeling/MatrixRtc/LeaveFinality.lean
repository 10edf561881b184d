import MatrixRtc.DistributionRuns
import MatrixRtc.InboundKeys

/-!
# Distributions across a leave

A leave clears the manager while calls of the upkeep, on clones of it, may wait at the
host or at the handler. They go on with what they had read before. The runs interleave
the distributions with leaves, joins, replays to the handler and retries given up, and
remember how much had been sent and signalled when a leave returned.
-/
namespace MatrixRtc.LeaveFinality
open HostAnswers EncryptionManagers KeyRollout InboundKeys DistributionRuns StepRuns

/-- The sends started and the signals delivered so far. -/
structure Mark where
  sent : ℕ
  signals : ℕ
deriving DecidableEq, Repr

structure History where
  base : System
  /-- since the first leave that no join followed -/
  left : Option Mark

def History.start (setup : Setup) (roster : List MemberEvents.JoinedMembership)
    (key : List UInt8) (now : ℕ) : History :=
  ⟨DistributionRuns.start setup roster key now, none⟩

inductive Action where
  | act (action : DistributionRuns.Action)
  | replay (now : ℕ)
  | forgetUndelivered (memberId : String)
  | leave
  | join (key : List UInt8) (now : ℕ)

def forgetUndelivered (m : EncryptionManager) (memberId : String) : EncryptionManager :=
  { m with undelivered := Function.update m.undelivered memberId none }

def mark (s : System) : Mark := ⟨s.sent.length, s.signals.length⟩

def History.step (h : History) : Action → Option History
  | .act action => (DistributionRuns.step h.base action).map fun t => { h with base := t }
  | .replay now =>
      if h.base.clock ≤ now then
        some { h with base := { h.base with
          signals := h.base.signals ++
            (replayKeysToHandler h.base.manager h.base.roster now).1.toList
          clock := now } }
      else none
  | .forgetUndelivered memberId =>
      some { h with base := { h.base with manager := forgetUndelivered h.base.manager memberId } }
  | .leave =>
      some ⟨{ h.base with manager := h.base.manager.leave }, h.left.or (some (mark h.base))⟩
  | .join key now =>
      if h.base.clock ≤ now then
        some ⟨{ h.base with manager := h.base.manager.join key now, clock := now }, none⟩
      else none

/-- Nothing is stored, sent or signalled since the leave. -/
structure Silent (s : System) (since : Mark) : Prop where
  outboundKey : s.manager.outboundKey = none
  supersededKey : s.manager.supersededKey = none
  undelivered : s.manager.undelivered = fun _ => none
  sent : s.sent.length = since.sent
  signals : s.signals.length = since.signals

/-- While we are not joined again, a leave was the end. -/
def Final (h : History) : Prop := ∀ since, h.left = some since → Silent h.base since

/-- Each target is served, the last one where several share a member id, or it is gone
when a follow-up reads the roster. -/
def Drains (s : System) (p : PendingRollout) (answer : SendAnswer) : Prop :=
  p.rotating = false ∧ ∀ t ∈ p.targets,
    (p.targets.filter fun q => q.memberId == t.memberId).getLast? = some t →
      anySameJoin (servedBy p.addressed answer) t = true ∨
        (s.manager.needNewDistribution = true ∧
          anySameJoin (s.manager.currentParticipants s.roster) t = false)

instance (s : System) (p : PendingRollout) (answer : SendAnswer) : Decidable (Drains s p answer) :=
  inferInstanceAs (Decidable (_ ∧ _))

/-- The rollout at its send, if any, drains with this answer. -/
def AnswerDrains (s : System) (answer : SendAnswer) : Prop :=
  match s.rollout with
  | some (.sending p) => Drains s p answer
  | _ => True

instance (s : System) (answer : SendAnswer) : Decidable (AnswerDrains s answer) := by
  unfold AnswerDrains
  split <;> infer_instance

/-- No rollout answered after a leave has rotated the key or misses a target. -/
def Drained (h : History) : Action → Prop
  | .act (.rolloutAnswered answer _) => h.left.isSome = true → AnswerDrains h.base answer
  | _ => True

instance (h : History) : DecidablePred (Drained h)
  | .act (.rolloutAnswered _ _) => inferInstanceAs (Decidable (_ → _))
  | .act (.setRoster _) | .act (.onMembershipsUpdate _) | .act (.eagerSignalled ..)
  | .act (.flushDueRotation ..) | .act (.rolloutSignalled ..) | .act (.retryUndeliveredKey _)
  | .act (.retryAnswered ..) | .replay _ | .forgetUndelivered _ | .leave | .join _ _ =>
      isTrue trivial

section Keyless
variable {s : System} {since : Mark}

theorem Silent.of_same {t : System} (h : Silent s since)
    (outboundKey : t.manager.outboundKey = s.manager.outboundKey)
    (supersededKey : t.manager.supersededKey = s.manager.supersededKey)
    (undelivered : t.manager.undelivered = s.manager.undelivered)
    (sent : t.sent = s.sent) (signals : t.signals = s.signals) : Silent t since :=
  ⟨outboundKey.trans h.outboundKey, supersededKey.trans h.supersededKey,
    undelivered.trans h.undelivered, by rw [sent, h.sent], by rw [signals, h.signals]⟩

theorem retainOwed_none (participants : List ParticipantDeviceInfo) :
    retainOwed (fun _ => none) participants = fun _ => none := rfl

theorem rolloutOnce_keyless (keyless : s.manager.outboundKey = none) (input : RolloutInput) :
    s.rolloutOnce input = { s with
      manager := settleRoster s.manager (s.manager.currentParticipants s.roster)
      lastRead := s.manager.currentParticipants s.roster
      rollout := none } := by
  unfold System.rolloutOnce beginRollout
  simp [keyless]

theorem Silent.rolloutOnce (h : Silent s since) (input : RolloutInput) :
    Silent (s.rolloutOnce input) since := by
  rw [rolloutOnce_keyless h.outboundKey]
  refine ⟨h.outboundKey, h.supersededKey, ?_, h.sent, h.signals⟩
  simp only [settleRoster, h.undelivered]
  exact retainOwed_none _

theorem silent_kept (since : Mark) : KeptByRollouts (Silent · since) fun _ _ => True :=
  ⟨fun _ _ h => h.of_same rfl rfl rfl rfl rfl, fun _ _ _ _ => trivial, fun h _ => h.rolloutOnce _⟩

theorem Silent.followUp (h : Silent s since) (next : RolloutInput) :
    Silent (s.followUp next) since :=
  (silent_kept since).followUp h fun _ _ => trivial

theorem Silent.ensureKeyDistribution (h : Silent s since) (input : LoopInput) :
    Silent (s.ensureKeyDistribution input) since :=
  (silent_kept since).ensureKeyDistribution h (fun _ _ => trivial) fun _ _ _ => trivial

theorem Silent.onMembershipsUpdate (h : Silent s since) (input : LoopInput) :
    Silent (s.onMembershipsUpdate input) since := by
  unfold System.onMembershipsUpdate
  simpa [h.outboundKey] using h

theorem Silent.flushDueRotation (h : Silent s since) (checkedAt : ℕ) (input : LoopInput) :
    Silent (s.flushDueRotation checkedAt input) since :=
  (silent_kept since).flushDueRotation h (fun _ _ _ _ _ => trivial) fun _ _ _ => trivial

theorem Silent.recordSignalled (h : Silent s since) (key : OutboundEncryptionKey)
    (useAfter atMs : ℕ) {t : System}
    (manager : t.manager = KeyRollout.recordSignalled s.manager key useAfter atMs)
    (sent : t.sent = s.sent) (signals : t.signals = s.signals) : Silent t since := by
  unfold KeyRollout.recordSignalled at manager
  split_ifs at manager <;>
    exact h.of_same (by rw [manager]) (by rw [manager]) (by rw [manager]) sent signals

theorem Silent.retryUndeliveredKey (h : Silent s since) (memberId : String) :
    Silent (s.retryUndeliveredKey memberId) since := by
  unfold System.retryUndeliveredKey beginRetry
  simpa [h.undelivered] using h

theorem Silent.retryAnswered (h : Silent s since) (i : ℕ) (r : PendingRetry)
    (answer : SendAnswer) : Silent { s with
      manager := (finishRetry s.manager r answer).1
      retries := s.retries.eraseIdx i } since := by
  unfold finishRetry
  split
  · exact h.of_same rfl rfl rfl rfl rfl
  · split_ifs
    · exact h.of_same rfl rfl rfl rfl rfl
    · have unowed : dropOwed (recordRetried s.manager r.owed) r.owed =
          recordRetried s.manager r.owed := by
        unfold dropOwed
        rw [if_neg]
        simp [recordRetried, h.undelivered]
      simp only [unowed]
      refine ⟨?_, h.supersededKey, h.undelivered, h.sent, h.signals⟩
      simp [recordRetried, h.outboundKey]

end Keyless

/-- What is owed to a member id is decided by the last target that has it. -/
theorem recordOwed_eq (undelivered : String → Option Undelivered) (keyIndex : UInt8)
    (reachedAll targets : List ParticipantDeviceInfo) (id : String) :
    recordOwed undelivered keyIndex reachedAll targets id =
      match (targets.filter fun q => q.memberId == id).getLast? with
      | some p => if anySameJoin reachedAll p then none else some ⟨p, keyIndex⟩
      | none => undelivered id := by
  induction targets generalizing undelivered with
  | nil => rfl
  | cons p rest ih =>
      rw [recordOwed, ih]
      by_cases mine : p.memberId = id
      · rw [List.filter_cons_of_pos (by simpa using mine), List.getLast?_cons, ← mine,
          Function.update_self]
        cases (rest.filter fun q => q.memberId == p.memberId).getLast? <;> rfl
      · rw [List.filter_cons_of_neg (by simpa using mine),
          Function.update_of_ne (Ne.symm mine)]

/-- Nothing stays owed if each last target is served or is forgotten. -/
theorem retained_eq_none {keyIndex : UInt8} {reachedAll targets : List ParticipantDeviceInfo}
    {keeps : Undelivered → Bool} :
    (fun id => (recordOwed (fun _ => none) keyIndex reachedAll targets id).filter keeps) =
        (fun _ => none) ↔
      ∀ t ∈ targets, (targets.filter fun q => q.memberId == t.memberId).getLast? = some t →
        anySameJoin reachedAll t = true ∨ keeps ⟨t, keyIndex⟩ = false := by
  constructor
  · intro nothing t member last
    have at_id := congrFun nothing t.memberId
    rw [recordOwed_eq, last] at at_id
    by_contra owed
    simp only [not_or, Bool.not_eq_true, Bool.not_eq_false] at owed
    simp [owed.1, owed.2] at at_id
  · intro all
    funext id
    rw [recordOwed_eq]
    cases last : (targets.filter fun q => q.memberId == id).getLast? with
    | none => rfl
    | some t =>
        obtain ⟨member, same⟩ := List.mem_filter.mp (List.mem_of_getLast? last)
        obtain rfl : t.memberId = id := by simpa using same
        obtain served | forgotten := all t member last
        · simp [served]
        · by_cases served : anySameJoin reachedAll t = true
          · simp [served]
          · simp [served, forgotten]

section Answered
variable {s : System} {since : Mark}

theorem finishRollout_keyed {m : EncryptionManager} {p : PendingRollout}
    (reachedAll : List ParticipantDeviceInfo)
    (keyed : p.rotating = true ∨ m.outboundKey.isSome = true) :
    (finishRollout m p reachedAll).outboundKey.isSome = true := by
  unfold finishRollout
  split_ifs with rotates
  · rfl
  · simpa [rotates] using keyed

theorem afterSend_manager (p : PendingRollout) (reachedAll : List ParticipantDeviceInfo) :
    (s.afterSend p reachedAll).manager = finishRollout s.manager p reachedAll := by
  unfold System.afterSend
  dsimp only
  split <;> rfl

/-- A key in place stays until a leave. -/
theorem rolloutOnce_keyed (keyed : s.manager.outboundKey.isSome = true) (input : RolloutInput) :
    (s.rolloutOnce input).manager.outboundKey.isSome = true := by
  have same := beginRollout_outboundKey s.manager s.roster input
  unfold System.rolloutOnce
  cases hb : beginRollout s.manager s.roster input with
  | mk m pending =>
      rw [hb] at same
      have keyed' : m.outboundKey.isSome = true := by rw [show m.outboundKey = _ from same, keyed]
      cases pending with
      | none => exact keyed'
      | some p =>
          dsimp only
          split
          · rw [afterSend_manager]
            exact finishRollout_keyed [] (.inr keyed')
          · exact keyed'

theorem followUp_keyed (keyed : s.manager.outboundKey.isSome = true) (next : RolloutInput) :
    (s.followUp next).manager.outboundKey.isSome = true := by
  have kept : KeptByRollouts (fun s => s.manager.outboundKey.isSome = true) fun _ _ => True :=
    ⟨fun _ _ h => h, fun _ _ _ _ => trivial, fun h _ => rolloutOnce_keyed h _⟩
  exact kept.followUp keyed fun _ _ => trivial

theorem not_silent_of_rotating {p : PendingRollout} (rotates : p.rotating = true)
    (reachedAll : List ParticipantDeviceInfo) (next : RolloutInput) :
    ¬ Silent ((s.afterSend p reachedAll).followUp next) since := by
  intro silent
  have keyed := followUp_keyed (s := s.afterSend p reachedAll)
    (by rw [afterSend_manager]; exact finishRollout_keyed reachedAll (.inl rotates)) next
  rw [silent.outboundKey] at keyed
  cases keyed

/-- The answer to a rollout that shares the key stores what it missed. -/
theorem silent_of_sharing (h : Silent s since) {p : PendingRollout} (shares : p.rotating = false)
    (answer : SendAnswer) (next : RolloutInput) :
    Silent ((s.afterSend p (servedBy p.addressed answer)).followUp next) since ↔
      Drains s p answer := by
  have sent : s.afterSend p (servedBy p.addressed answer) = { s with
      manager := { s.manager with
        undelivered := recordOwed (fun _ => none) p.key.keyIndex
          (servedBy p.addressed answer) p.targets
        outboundKey := none }
      rollout := none } := by
    simp [System.afterSend, finishRollout, shares, h.outboundKey, h.undelivered]
  have settles : ∀ keeps : Undelivered → Bool, ∀ t : System,
      t.manager.outboundKey = none → t.manager.supersededKey = s.manager.supersededKey →
      t.sent = s.sent → t.signals = s.signals →
      (t.manager.undelivered = fun id => (recordOwed (fun _ => none) p.key.keyIndex
        (servedBy p.addressed answer) p.targets id).filter keeps) →
      (Silent t since ↔ ∀ q ∈ p.targets,
        (p.targets.filter fun r => r.memberId == q.memberId).getLast? = some q →
          anySameJoin (servedBy p.addressed answer) q = true ∨
            keeps ⟨q, p.key.keyIndex⟩ = false) := by
    intro keeps t outboundKey supersededKey sends signals owed
    rw [← retained_eq_none, ← owed]
    refine ⟨fun silent => silent.undelivered, fun nothing => ?_⟩
    exact ⟨outboundKey, supersededKey.trans h.supersededKey, nothing, by rw [sends, h.sent],
      by rw [signals, h.signals]⟩
  rw [sent]
  unfold System.followUp Drains
  dsimp only
  split_ifs with requested
  · rw [rolloutOnce_keyless rfl]
    refine (settles (fun owed => anySameJoin (s.manager.currentParticipants s.roster) owed.target)
      _ ?_ ?_ ?_ ?_ ?_).trans ?_
    · rfl
    · rfl
    · rfl
    · rfl
    · rfl
    · simp [shares, requested]
  · refine (settles (fun _ => true) _ ?_ ?_ ?_ ?_ ?_).trans ?_
    · rfl
    · rfl
    · rfl
    · rfl
    · have kept : ∀ owed : Option Undelivered, owed.filter (fun _ => true) = owed := by
        rintro (_ | owed) <;> rfl
      funext id
      exact (kept _).symm
    · simp [shares, requested]

end Answered

section Runs
variable {h h' : History}

/-- A step after a leave keeps the silence exactly if it drains. -/
theorem act_silent {action : DistributionRuns.Action} {since : Mark} {t : System}
    (silent : Silent h.base since) (left : h.left = some since)
    (hstep : DistributionRuns.step h.base action = some t) :
    Silent t since ↔ Drained h (.act action) := by
  have tick : ∀ clock, Silent { h.base with clock := clock } since := fun _ =>
    silent.of_same rfl rfl rfl rfl rfl
  cases action with
  | setRoster roster =>
      obtain rfl := Option.some.inj hstep
      exact iff_of_true (silent.of_same rfl rfl rfl rfl rfl) trivial
  | onMembershipsUpdate input =>
      simp only [DistributionRuns.step, Option.ite_none_right_eq_some, Option.some.injEq] at hstep
      obtain ⟨-, rfl⟩ := hstep
      exact iff_of_true ((tick _).onMembershipsUpdate input) trivial
  | eagerSignalled i atMs input =>
      simp only [DistributionRuns.step] at hstep
      split at hstep
      · cases hstep
      · rename_i key pending
        simp only [Option.ite_none_right_eq_some, Option.some.injEq] at hstep
        obtain ⟨-, rfl⟩ := hstep
        refine iff_of_true (Silent.ensureKeyDistribution ?_ input) trivial
        exact silent.recordSignalled key 0 atMs rfl rfl rfl
  | flushDueRotation checkedAt input =>
      simp only [DistributionRuns.step, Option.ite_none_right_eq_some, Option.some.injEq] at hstep
      obtain ⟨-, rfl⟩ := hstep
      exact iff_of_true ((tick _).flushDueRotation checkedAt input) trivial
  | rolloutAnswered answer next =>
      simp only [DistributionRuns.step] at hstep
      split at hstep
      · rename_i p sending
        simp only [Option.ite_none_right_eq_some, Option.some.injEq] at hstep
        obtain ⟨-, rfl⟩ := hstep
        have drained : Drained h (.act (.rolloutAnswered answer next)) ↔
            Drains h.base p answer := by
          simp [Drained, AnswerDrains, left, sending]
        rw [drained]
        cases rotates : p.rotating with
        | true =>
            refine iff_of_false (not_silent_of_rotating rotates _ next) fun drains => ?_
            exact absurd (rotates.symm.trans drains.1) (by simp)
        | false => exact silent_of_sharing (tick next.mintedAt) rotates answer next
      · cases hstep
  | rolloutSignalled atMs next =>
      simp only [DistributionRuns.step] at hstep
      split at hstep
      · rename_i p signalling
        simp only [Option.ite_none_right_eq_some, Option.some.injEq] at hstep
        obtain ⟨-, rfl⟩ := hstep
        refine iff_of_true (Silent.followUp ?_ next) trivial
        exact silent.recordSignalled p.key p.useAfterMs atMs rfl rfl rfl
      · cases hstep
  | retryUndeliveredKey memberId =>
      obtain rfl := Option.some.inj hstep
      exact iff_of_true (silent.retryUndeliveredKey memberId) trivial
  | retryAnswered i answer =>
      simp only [DistributionRuns.step] at hstep
      split at hstep
      · cases hstep
      · rename_i r pending
        obtain rfl := Option.some.inj hstep
        exact iff_of_true (silent.retryAnswered i r answer) trivial

theorem leave_silent (s : System) :
    Silent { s with manager := s.manager.leave } (mark s) := ⟨rfl, rfl, rfl, rfl, rfl⟩

theorem final_step (final : Final h) {a : Action} (hstep : h.step a = some h') :
    Final h' ↔ Drained h a := by
  cases a with
  | act action =>
      obtain ⟨t, taken, rfl⟩ := Option.map_eq_some_iff.mp hstep
      obtain left | ⟨since, left⟩ := Option.eq_none_or_eq_some h.left
      · refine iff_of_true (fun since after => absurd (left.symm.trans after) (by simp)) ?_
        cases action <;> first | trivial | exact fun since => by simp [left] at since
      · rw [← act_silent (final since left) left taken]
        refine ⟨fun after => after since left, fun silent since' after => ?_⟩
        cases left.symm.trans after
        exact silent
  | replay now =>
      simp only [History.step, Option.ite_none_right_eq_some, Option.some.injEq] at hstep
      obtain ⟨-, rfl⟩ := hstep
      refine iff_of_true (fun since left => ?_) trivial
      have silent := final since left
      have nothing : (replayKeysToHandler h.base.manager h.base.roster now).1 = none := by
        unfold replayKeysToHandler replayOwnKey
        split_ifs
        · simp [silent.outboundKey]
        · rfl
      exact silent.of_same rfl rfl rfl rfl (by simp [nothing])
  | forgetUndelivered memberId =>
      obtain rfl := Option.some.inj hstep
      refine iff_of_true (fun since left => ?_) trivial
      have silent := final since left
      refine ⟨silent.outboundKey, silent.supersededKey, ?_, silent.sent, silent.signals⟩
      simp only [LeaveFinality.forgetUndelivered, silent.undelivered]
      exact Function.update_eq_self memberId _
  | leave =>
      obtain rfl := Option.some.inj hstep
      refine iff_of_true (fun since left => ?_) trivial
      cases before : h.left with
      | none =>
          simp only [before, Option.none_or, Option.some.injEq] at left
          rw [← left]
          exact leave_silent h.base
      | some earlier =>
          simp only [before, Option.some_or, Option.some.injEq] at left
          have silent := final since (left ▸ before)
          exact ⟨rfl, rfl, rfl, silent.sent, silent.signals⟩
  | join key now =>
      simp only [History.step, Option.ite_none_right_eq_some, Option.some.injEq] at hstep
      obtain ⟨-, rfl⟩ := hstep
      exact iff_of_true nofun trivial

/-- All along a run of distributions, leaves and joins a leave is final until the next
join, exactly if every rollout answered after one drains. -/
theorem leave_final_iff (setup : Setup) (roster : List MemberEvents.JoinedMembership)
    (key : List UInt8) (now : ℕ) (actions : List Action) (h : History)
    (reach : run History.step (.start setup roster key now) actions = some h) :
    Always History.step Final (.start setup roster key now) actions ↔
      Admissible History.step Drained (.start setup roster key now) actions := by
  have each : ∀ h a h', True → Final h → h.step a = some h' → (Final h' ↔ Drained h a) :=
    fun h a h' _ final hstep => final_step final hstep
  exact always_iff_admissible (fun _ _ _ _ _ => trivial) each trivial nofun reach

/-- Bob's send is answered after alice left. -/
def answeredAfterLeaving (answer : SendAnswer) : List Action :=
  [.act (.onMembershipsUpdate (inputAt 0)), .leave,
    .act (.rolloutAnswered answer (inputAt 0).next), .act (.retryUndeliveredKey "bob")]

theorem served_after_leaving :
    Always History.step Final (.start alice [bob] [1] 0)
      (answeredAfterLeaving (.ok [.sent ⟨"@bob:x", "B"⟩])) := by
  obtain ⟨h, reach⟩ := Option.isSome_iff_exists.mp (show (run History.step
    (.start alice [bob] [1] 0)
      (answeredAfterLeaving (.ok [.sent ⟨"@bob:x", "B"⟩]))).isSome = true by decide)
  exact (leave_final_iff alice [bob] [1] 0 _ h reach).mpr (by decide)

/-- Bob joins after the key's lifetime, and the rotation is at its send when we leave. -/
def rotatedAfterLeaving : List Action :=
  [.act (.onMembershipsUpdate (inputAt 5400000)), .leave,
    .act (.rolloutAnswered (.ok [.failed ⟨"@bob:x", "B"⟩ "offline"]) (inputAt 5400000).next),
    .act (.retryUndeliveredKey "bob")]

/-- The rotated key is stored after the leave, bob is owed it, and the retry sends it. -/
theorem not_final_when_rotating :
    ∃ h ∈ run History.step (.start alice [bob] [1] 0) rotatedAfterLeaving,
      ∃ since ∈ h.left, h.base.manager.outboundKey.isSome = true ∧
        (h.base.manager.undelivered "bob").isSome = true ∧
        since.sent < h.base.sent.length ∧ ¬ Final h := by
  have reached : ∃ h ∈ run History.step (.start alice [bob] [1] 0) rotatedAfterLeaving,
      ∃ since ∈ h.left, h.base.manager.outboundKey.isSome = true ∧
        (h.base.manager.undelivered "bob").isSome = true ∧
        since.sent < h.base.sent.length := by decide
  obtain ⟨h, reach, since, left, stored, owed, sent⟩ := reached
  refine ⟨h, reach, since, left, stored, owed, sent, fun final => ?_⟩
  exact absurd (final since left).sent (Nat.ne_of_gt sent)

end Runs

end MatrixRtc.LeaveFinality

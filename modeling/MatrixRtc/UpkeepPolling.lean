import MatrixRtc.DistributionRuns

/-!
# Key sends and the upkeep's loop

A join awaits its distributions before it spawns the upkeep, and the loop of the upkeep
awaits a due rotation inside the handler of a beat or of the rotation's own timer. While
one of these waits the loop is not at its select: no beat comes and the restart of the
delayed leave is not polled. This module runs the distributions under their callers: the
join, the loop with its retries, and the updates of a session that has joined. What a
beat does besides the flush waits for nothing in its handler and is left out, as is the
leave.
-/
namespace MatrixRtc.UpkeepPolling
open StepRuns EncryptionManagers KeyRollout DistributionRuns

/-- Where the task that joins and then keeps up the session is. A join that has made its
last distribution spawns the upkeep. -/
inductive Phase where
  | joining (distributed : Bool)
  | joinAwaits (last : Bool)
  | select
  | handlerAwaits
deriving DecidableEq, Repr

structure UpkeepRun where
  system : System
  phase : Phase

/-- A join whose membership is published and whose first key is in place. -/
def UpkeepRun.start (setup : Setup) (roster : List MemberEvents.JoinedMembership)
    (key : List UInt8) (now : ℕ) : UpkeepRun :=
  ⟨DistributionRuns.start setup roster key now, .joining false⟩

/-- The join updates the distribution once if its joined set changed and then once more, a
beat or the rotation's timer flushes, and the joined session updates; retries are polled
by the loop. -/
inductive Action where
  | setRoster (roster : List MemberEvents.JoinedMembership)
  | joinUpdate (last : Bool) (input : LoopInput)
  | spawn
  | flush (checkedAt : ℕ) (input : LoopInput)
  | update (input : LoopInput)
  | eagerSignalled (i : ℕ) (atMs : ℕ) (input : LoopInput)
  | rolloutAnswered (answer : SendAnswer) (next : RolloutInput)
  | rolloutSignalled (atMs : ℕ) (next : RolloutInput)
  | retry (memberId : String)
  | retryAnswered (i : ℕ) (answer : SendAnswer)

/-- A call of the system is suspended: at the handler before a distribution, or in one. -/
def suspended (s : System) : Bool := s.rollout.isSome || !s.eager.isEmpty

/-- Where the task is once the call it awaits goes on. -/
def Phase.after (phase : Phase) (s : System) : Phase :=
  match phase with
  | .joinAwaits last => if suspended s then .joinAwaits last else .joining last
  | .handlerAwaits => if s.rollout.isSome then .handlerAwaits else .select
  | phase => phase

def UpkeepRun.step (s : UpkeepRun) : Action → Option UpkeepRun
  | .setRoster roster => some { s with system := { s.system with roster := roster } }
  | .joinUpdate last input =>
      match s.phase with
      | .joining _ =>
          (DistributionRuns.step s.system (.onMembershipsUpdate input)).map fun t =>
            ⟨t, (Phase.joinAwaits last).after t⟩
      | _ => none
  | .spawn => if s.phase = .joining true then some { s with phase := .select } else none
  | .flush checkedAt input =>
      if s.phase = .select then
        (DistributionRuns.step s.system (.flushDueRotation checkedAt input)).map fun t =>
          ⟨t, if s.system.rollout.isSome then .select else Phase.handlerAwaits.after t⟩
      else none
  | .update input =>
      if s.phase = .select ∨ s.phase = .handlerAwaits then
        (DistributionRuns.step s.system (.onMembershipsUpdate input)).map fun t =>
          { s with system := t }
      else none
  | .eagerSignalled i atMs input =>
      (DistributionRuns.step s.system (.eagerSignalled i atMs input)).map fun t =>
        ⟨t, s.phase.after t⟩
  | .rolloutAnswered answer next =>
      (DistributionRuns.step s.system (.rolloutAnswered answer next)).map fun t =>
        ⟨t, s.phase.after t⟩
  | .rolloutSignalled atMs next =>
      (DistributionRuns.step s.system (.rolloutSignalled atMs next)).map fun t =>
        ⟨t, s.phase.after t⟩
  | .retry memberId =>
      if s.phase = .select then
        (DistributionRuns.step s.system (.retryUndeliveredKey memberId)).map fun t =>
          { s with system := t }
      else none
  | .retryAnswered i answer =>
      if s.phase = .select then
        (DistributionRuns.step s.system (.retryAnswered i answer)).map fun t =>
          { s with system := t }
      else none

/-- A rollout waits for `send_to_device_message`. -/
def sending (s : System) : Bool :=
  match s.rollout with
  | some (.sending _) => true
  | _ => false

/-- A call of `send_to_device_message` is outstanding. -/
def SendOutstanding (s : System) : Prop := sending s = true ∨ s.retries ≠ []

instance (s : System) : Decidable (SendOutstanding s) := inferInstanceAs (Decidable (_ ∨ _))

/-- While a send is outstanding the loop is at its select. -/
def Polled (s : UpkeepRun) : Prop := SendOutstanding s.system → s.phase = .select

instance : DecidablePred Polled := fun _ => inferInstanceAs (Decidable (_ → _))

/-- Whom a rollout begun now would address. -/
def addressedNow (s : System) (input : RolloutInput) : List Addressed :=
  (((beginRollout s.manager s.roster input).2).map PendingRollout.addressed).getD []

/-- A rollout begun now would signal a new key to the handler. -/
def signalsNow (s : System) (input : RolloutInput) : Bool :=
  s.manager.signalHandler && (beginRollout s.manager s.roster input).2.any PendingRollout.rotating

/-- An update made now would first signal the key in place. -/
def signalsEagerly (s : System) : Bool :=
  s.manager.signalHandler && s.manager.outboundKey.any fun key =>
    s.manager.signalledKey.map SignalledKey.keyIndex != some key.keyIndex

/-- A flush made at this reading would run a rollout of its own. -/
def flushRuns (s : System) (checkedAt : ℕ) : Bool :=
  s.manager.config.manageMediaKeys && !s.manager.keyDistributionInProgress &&
    s.manager.rotationDueAt.any (· ≤ checkedAt)

/-- The join and the handlers of the loop await no distribution with somebody to send the
key to, and no handler awaits the signal of a new key while a retry's send is
outstanding. -/
def AwaitsNoSend (s : UpkeepRun) : Action → Prop
  | .joinUpdate _ input =>
      s.system.manager.config.manageMediaKeys = true → signalsEagerly s.system = false →
        addressedNow s.system input.first = []
  | .eagerSignalled _ _ input =>
      (∃ last, s.phase = .joinAwaits last) → s.system.manager.config.manageMediaKeys = true →
        addressedNow s.system input.first = []
  | .flush checkedAt input =>
      flushRuns s.system checkedAt = true →
        addressedNow s.system input.first = [] ∧
          (signalsNow s.system input.first = true → s.system.retries = [])
  | .rolloutSignalled _ next =>
      s.phase ≠ .select → s.system.manager.needNewDistribution = true →
        addressedNow s.system next = []
  | _ => True

instance (s : UpkeepRun) : DecidablePred (AwaitsNoSend s)
  | .joinUpdate _ _ | .flush _ _ => inferInstanceAs (Decidable (_ → _))
  | .eagerSignalled _ _ _ | .rolloutSignalled _ _ => inferInstanceAs (Decidable (_ → _ → _))
  | .setRoster _ | .spawn | .update _ | .rolloutAnswered _ _ | .retry _ | .retryAnswered _ _ =>
      isTrue trivial

section Systems
variable {s : System}

/-- A rollout comes to wait for a send exactly when it has somebody to address, and else
for the handler when it signals a new key. -/
structure Rolled (s t : System) (input : RolloutInput) : Prop where
  retries : t.retries = s.retries
  eager : t.eager = s.eager
  flags : flags t.manager = flags s.manager
  sends : sending t = true ↔ addressedNow s input ≠ []
  waits : t.rollout.isSome = true ↔ addressedNow s input ≠ [] ∨ signalsNow s input = true

/-- What a rollout distributes depends on its manager's setup and keys. -/
theorem beginRollout_congr {m m' : EncryptionManager} (setup : m'.setup = m.setup)
    (outbound : m'.outboundKey = m.outboundKey) (superseded : m'.supersededKey = m.supersededKey)
    (index : m'.nextKeyIndex = m.nextKeyIndex) (roster : List MemberEvents.JoinedMembership)
    (input : RolloutInput) :
    (beginRollout m' roster input).2 = (beginRollout m roster input).2 := by
  have config := EncryptionManager.config_of_setup setup
  have participants := EncryptionManager.currentParticipants_of_setup setup roster
  unfold beginRollout
  simp only [settleRoster_outboundKey, outbound]
  cases m.outboundKey with
  | none => rfl
  | some current =>
      simp only [decideRollout, settleRoster, setRotationDueAt, createNewOutboundKey,
        EncryptionManager.keyInUse, config, participants, outbound, superseded, index]
      by_cases rotates :
          rotating m.config current (m.currentParticipants roster) input.now = true
      · simp [rotates]
      · by_cases nobody : joined current (m.currentParticipants roster) = []
        · simp [rotates, nobody]
        · simp [rotates, nobody]

/-- The systems distribute from the same keys to the same roster. -/
structure SameKeys (s t : System) : Prop where
  setup : t.manager.setup = s.manager.setup
  outbound : t.manager.outboundKey = s.manager.outboundKey
  superseded : t.manager.supersededKey = s.manager.supersededKey
  index : t.manager.nextKeyIndex = s.manager.nextKeyIndex
  roster : t.roster = s.roster

theorem SameKeys.addressed {t : System} (same : SameKeys s t) (input : RolloutInput) :
    addressedNow t input = addressedNow s input := by
  unfold addressedNow
  rw [same.roster, beginRollout_congr same.setup same.outbound same.superseded same.index]

theorem SameKeys.signals {t : System} (same : SameKeys s t) (input : RolloutInput) :
    signalsNow t input = signalsNow s input := by
  have handler : t.manager.signalHandler = s.manager.signalHandler :=
    congrArg Setup.signalHandler same.setup
  unfold signalsNow
  rw [same.roster, handler,
    beginRollout_congr same.setup same.outbound same.superseded same.index]

/-- After its send a rollout waits for the handler, if at all. -/
theorem afterSend_rollout (p : PendingRollout) (reachedAll : List ParticipantDeviceInfo) :
    sending (s.afterSend p reachedAll) = false ∧
      (s.afterSend p reachedAll).rollout.isSome = (s.manager.signalHandler && p.rotating) ∧
      (s.afterSend p reachedAll).retries = s.retries ∧
      (s.afterSend p reachedAll).eager = s.eager := by
  have handler : (finishRollout s.manager p reachedAll).signalHandler = s.manager.signalHandler :=
    congrArg Setup.signalHandler (finishRollout_setup s.manager p reachedAll)
  unfold System.afterSend
  dsimp only
  cases rotates : p.rotating with
  | false => simp [sending]
  | true =>
      cases installed : s.manager.signalHandler with
      | false => simp [signalKeyToApp, handler, installed, sending]
      | true => simp [signalKeyToApp, handler, installed, sending]

theorem rolloutOnce_rolled (s : System) (input : RolloutInput) :
    Rolled s (s.rolloutOnce input) input := by
  have same := (rolloutOnce_settled s input).2
  have handler : (beginRollout s.manager s.roster input).1.signalHandler =
      s.manager.signalHandler :=
    congrArg Setup.signalHandler (beginRollout_setup s.manager s.roster input)
  unfold System.rolloutOnce at same ⊢
  cases hb : beginRollout s.manager s.roster input with
  | mk m pending =>
      rw [hb] at same handler
      cases pending with
      | none =>
          refine ⟨rfl, rfl, same, ?_, ?_⟩ <;> simp [addressedNow, signalsNow, hb, sending]
      | some p =>
          dsimp only at same ⊢
          by_cases nobody : p.addressed = []
          · simp only [rolloutSend, nobody, if_true] at same ⊢
            obtain ⟨unsent, waits, retries, eager⟩ := afterSend_rollout
              (s := { s with manager := m, lastRead := s.manager.currentParticipants s.roster })
              p []
            refine ⟨retries, eager, same, ?_, ?_⟩
            · simp [unsent, addressedNow, hb, nobody]
            · rw [waits, handler]
              simp [addressedNow, signalsNow, hb, nobody]
          · simp only [rolloutSend, nobody, if_false] at same ⊢
            refine ⟨rfl, rfl, same, ?_, ?_⟩ <;>
              simp [addressedNow, hb, nobody, sending]

/-- A distribution is in progress while its rollout is suspended, and a request waits only
meanwhile. -/
structure Orderly (s : System) : Prop where
  progress : s.manager.keyDistributionInProgress = s.rollout.isSome
  requested : s.rollout = none → s.manager.needNewDistribution = false

theorem Orderly.tick (h : Orderly s) (clock : ℕ) : Orderly { s with clock := clock } :=
  ⟨h.progress, h.requested⟩

theorem Orderly.of_flags {t : System} (h : Orderly s)
    (same : flags t.manager = flags s.manager) (rollout : t.rollout = s.rollout) : Orderly t := by
  obtain ⟨progress, requested⟩ := Prod.ext_iff.mp same
  refine ⟨progress.trans (h.progress.trans (by rw [rollout])), fun none => ?_⟩
  exact requested.trans (h.requested (rollout.symm.trans none))

theorem Orderly.unrequested (h : Orderly s)
    (free : s.manager.keyDistributionInProgress = false) :
    s.manager.needNewDistribution = false := by
  refine h.requested ?_
  simpa [h.progress] using free

theorem closeLoop_orderly (busy : s.manager.keyDistributionInProgress = true)
    (answered : s.manager.needNewDistribution = false) :
    Orderly s.closeLoop ∧ s.closeLoop.rollout = s.rollout ∧ s.closeLoop.retries = s.retries ∧
      s.closeLoop.eager = s.eager := by
  unfold System.closeLoop
  split
  · rename_i phase hr
    exact ⟨⟨by rw [busy, hr]; rfl, fun _ => answered⟩, rfl, rfl, rfl⟩
  · rename_i hr
    exact ⟨⟨by simp [hr], fun _ => answered⟩, rfl, rfl, rfl⟩

/-- What the end of a rollout makes of the system: a request made meanwhile is answered by
one more rollout. -/
structure Followed (s t : System) (next : RolloutInput) : Prop where
  orderly : Orderly t
  retries : t.retries = s.retries
  eager : t.eager = s.eager
  suspended : s.rollout.isSome = true → t = s
  ended : s.rollout = none → s.manager.needNewDistribution = false → t.rollout = none
  again : s.rollout = none → s.manager.needNewDistribution = true →
    (sending t = true ↔ addressedNow s next ≠ [])

theorem Followed.calm {t : System} {next : RolloutInput} (h : Followed s t next)
    (answered : s.manager.needNewDistribution = false) : t.manager.needNewDistribution = false := by
  cases waiting : s.rollout with
  | some phase => rwa [h.suspended (by rw [waiting]; rfl)]
  | none => exact h.orderly.requested (h.ended waiting answered)

theorem followUp_followed (busy : s.manager.keyDistributionInProgress = true)
    (next : RolloutInput) : Followed s (s.followUp next) next := by
  unfold System.followUp
  split
  · rename_i phase hr
    refine ⟨⟨by rw [busy, hr]; rfl, fun none => ?_⟩, rfl, rfl, fun _ => rfl, ?_, ?_⟩
    · rw [hr] at none
      cases none
    · simp [hr]
    · simp [hr]
  · rename_i hr
    split_ifs with requested
    · have rolled := rolloutOnce_rolled
        { s with manager := { s.manager with needNewDistribution := false } } next
      obtain ⟨inProgress, answered⟩ := Prod.ext_iff.mp rolled.flags
      obtain ⟨orderly, rollout, retries, eager⟩ := closeLoop_orderly
        (inProgress.trans busy) answered
      refine ⟨orderly, retries.trans rolled.retries, eager.trans rolled.eager, by simp [hr],
        by simp [requested], fun _ _ => ?_⟩
      have same : SameKeys s
          { s with manager := { s.manager with needNewDistribution := false } } :=
        ⟨rfl, rfl, rfl, rfl, rfl⟩
      have sends := rolled.sends
      rw [same.addressed] at sends
      unfold sending at sends ⊢
      rw [rollout]
      exact sends
    · obtain ⟨orderly, rollout, retries, eager⟩ := closeLoop_orderly busy
        (Bool.eq_false_iff.mpr requested)
      exact ⟨orderly, retries, eager, by simp [hr], fun _ _ => rollout.trans hr,
        fun _ again => absurd again requested⟩

/-- What a request for a distribution makes of the system. -/
structure Ensured (s t : System) (input : RolloutInput) : Prop where
  orderly : Orderly t
  retries : t.retries = s.retries
  eager : t.eager = s.eager
  waiting : s.rollout.isSome = true → t.rollout = s.rollout
  sends : s.rollout = none → (sending t = true ↔
    s.manager.config.manageMediaKeys = true ∧ addressedNow s input ≠ [])
  waits : s.rollout = none → (t.rollout.isSome = true ↔
    s.manager.config.manageMediaKeys = true ∧
      (addressedNow s input ≠ [] ∨ signalsNow s input = true))
  requested : s.rollout = none → t.manager.needNewDistribution = false

theorem ensureKeyDistribution_ensured (h : Orderly s) (input : LoopInput) :
    Ensured s (s.ensureKeyDistribution input) input.first := by
  unfold System.ensureKeyDistribution
  split_ifs with unmanaged inProgress
  · refine ⟨h, rfl, rfl, fun _ => rfl, fun none => ?_, fun none => ?_, h.requested⟩
    · simp [sending, none, unmanaged]
    · simp [none, unmanaged]
  · rw [h.progress] at inProgress
    refine ⟨⟨h.progress, fun none => ?_⟩, rfl, rfl, fun _ => rfl, fun none => ?_,
      fun none => ?_, fun none => ?_⟩ <;> simp_all
  · have idle : s.rollout = none := by
      rw [h.progress] at inProgress
      simpa using inProgress
    have managed : s.manager.config.manageMediaKeys = true := by simpa using unmanaged
    have rolled := rolloutOnce_rolled
      { s with manager := { s.manager with keyDistributionInProgress := true } } input.first
    obtain ⟨busy, requested⟩ := Prod.ext_iff.mp rolled.flags
    have calm := requested.trans (h.requested idle)
    have keys : SameKeys s
        { s with manager := { s.manager with keyDistributionInProgress := true } } :=
      ⟨rfl, rfl, rfl, rfl, rfl⟩
    have followed := followUp_followed busy input.next
    generalize System.rolloutOnce
      { s with manager := { s.manager with keyDistributionInProgress := true } } input.first = u
      at *
    have same : (u.followUp input.next).rollout = u.rollout := by
      cases hu : u.rollout with
      | some phase => rw [followed.suspended (by rw [hu]; rfl), hu]
      | none => exact followed.ended hu calm
    refine ⟨followed.orderly, followed.retries.trans rolled.retries,
      followed.eager.trans rolled.eager, by simp [idle], fun _ => ?_, fun _ => ?_, fun _ => ?_⟩
    · rw [and_iff_right managed]
      have sends := rolled.sends
      rw [keys.addressed] at sends
      unfold sending at sends ⊢
      rw [same]
      exact sends
    · have waits := rolled.waits
      rw [keys.addressed, keys.signals] at waits
      rw [and_iff_right managed, same]
      exact waits
    · exact followed.calm calm

theorem Ensured.refl (h : Orderly s) {input : RolloutInput}
    (nothing : s.manager.config.manageMediaKeys = true →
      addressedNow s input = [] ∧ signalsNow s input = false) : Ensured s s input := by
  refine ⟨h, rfl, rfl, fun _ => rfl, fun none => ?_, fun none => ?_, h.requested⟩
  · have idle : sending s = false := by simp [sending, none]
    simp only [idle, Bool.false_eq_true, false_iff, not_and, not_not]
    exact fun managed => (nothing managed).1
  · simp only [none, Option.isSome_none, Bool.false_eq_true, false_iff, not_and, not_or, not_not,
      Bool.not_eq_true]
    exact nothing

theorem Ensured.of_keys {t u : System} {input : RolloutInput} (h : Ensured u t input)
    (keys : SameKeys s u) (retries : u.retries = s.retries) (eager : u.eager = s.eager)
    (rollout : u.rollout = s.rollout) : Ensured s t input := by
  have config : u.manager.config.manageMediaKeys = s.manager.config.manageMediaKeys :=
    congrArg EncryptionConfig.manageMediaKeys (EncryptionManager.config_of_setup keys.setup)
  refine ⟨h.orderly, h.retries.trans retries, h.eager.trans eager, fun some => ?_, fun none => ?_,
    fun none => ?_, fun none => h.requested (rollout.trans none)⟩
  · exact (h.waiting (by rw [rollout]; exact some)).trans rollout
  · rw [h.sends (rollout.trans none), config, keys.addressed]
  · rw [h.waits (rollout.trans none), config, keys.addressed, keys.signals]

/-- An update that does not signal the key in place first is a request. -/
theorem onMembershipsUpdate_ensured (h : Orderly s) (input : LoopInput)
    (ready : s.manager.config.manageMediaKeys = true → signalsEagerly s = false) :
    Ensured s (s.onMembershipsUpdate input) input.first := by
  unfold System.onMembershipsUpdate
  split_ifs with unmanaged
  · exact Ensured.refl h fun managed => absurd managed (by simp [unmanaged])
  · have managed : s.manager.config.manageMediaKeys = true := by simpa using unmanaged
    have told := ready managed
    split
    · rename_i missing
      have none_pending : (beginRollout s.manager s.roster input.first).2 = none := by
        simp [beginRollout, missing]
      exact Ensured.refl h fun _ => by simp [addressedNow, signalsNow, none_pending]
    · rename_i key hkey
      split_ifs with unsignalled
      · have uninstalled : s.manager.signalHandler = false := by
          simpa [signalsEagerly, hkey, unsignalled] using told
        simp only [signalKeyToApp, uninstalled, Bool.false_eq_true, if_false]
        exact ensureKeyDistribution_ensured h input
      · exact ensureKeyDistribution_ensured h input

theorem onMembershipsUpdate_eager (input : LoopInput)
    (managed : s.manager.config.manageMediaKeys = true) (eager : signalsEagerly s = true) :
    ∃ key signal, s.onMembershipsUpdate input =
      { s with eager := s.eager ++ [key], signals := s.signals ++ [signal] } := by
  unfold System.onMembershipsUpdate
  rw [if_neg (by simp [managed])]
  obtain ⟨installed, key, hkey, unsignalled⟩ : s.manager.signalHandler = true ∧
      ∃ key, s.manager.outboundKey = some key ∧
        s.manager.signalledKey.map SignalledKey.keyIndex ≠ some key.keyIndex := by
    simpa [signalsEagerly, Option.any_eq_true] using eager
  simp only [hkey, if_pos unsignalled, signalKeyToApp, installed, if_true]
  exact ⟨key, _, rfl⟩

/-- A flush is a request when it runs a rollout, and waits for nothing otherwise. -/
theorem flushDueRotation_spec (h : Orderly s) (checkedAt : ℕ) (input : LoopInput)
    (idle : s.rollout = none) :
    (flushRuns s checkedAt = true →
      Ensured s (s.flushDueRotation checkedAt input) input.first) ∧
    (flushRuns s checkedAt = false → s.flushDueRotation checkedAt input = s) := by
  have ensured := ensureKeyDistribution_ensured h input
  unfold System.flushDueRotation
  split
  · rename_i undue
    refine ⟨fun runs => ?_, fun _ => rfl⟩
    simp [flushRuns, undue] at runs
  · rename_i due hdue
    split_ifs with early
    · refine ⟨fun runs => ?_, fun _ => rfl⟩
      have late : due ≤ checkedAt := by
        simpa [flushRuns, hdue] using (Bool.and_eq_true_iff.mp runs).2
      exact absurd early (not_lt.mpr late)
    · refine ⟨fun _ => ensured, fun runs => ?_⟩
      have free : s.manager.keyDistributionInProgress = false := by simp [h.progress, idle]
      have unmanaged : s.manager.config.manageMediaKeys = false := by
        simpa [flushRuns, hdue, free, not_lt.mp early] using runs
      unfold System.ensureKeyDistribution
      rw [if_pos unmanaged]

theorem flushDueRotation_orderly (h : Orderly s) (checkedAt : ℕ) (input : LoopInput) :
    Orderly (s.flushDueRotation checkedAt input) := by
  unfold System.flushDueRotation
  split
  · exact h
  · split_ifs
    · exact h
    · exact (ensureKeyDistribution_ensured h input).orderly

theorem onMembershipsUpdate_spec (h : Orderly s) (input : LoopInput) :
    Orderly (s.onMembershipsUpdate input) ∧
      (s.rollout.isSome = true → (s.onMembershipsUpdate input).rollout = s.rollout) ∧
      (s.onMembershipsUpdate input).retries = s.retries := by
  by_cases eager : s.manager.config.manageMediaKeys = true ∧ signalsEagerly s = true
  · obtain ⟨key, signal, told⟩ := onMembershipsUpdate_eager input eager.1 eager.2
    rw [told]
    exact ⟨⟨h.progress, h.requested⟩, fun _ => rfl, rfl⟩
  · have ensured := onMembershipsUpdate_ensured h input fun managed =>
      Bool.eq_false_iff.mpr fun unsignalled => eager ⟨managed, unsignalled⟩
    exact ⟨ensured.orderly, ensured.waiting, ensured.retries⟩

/-- Every step of the interleaving leaves the system orderly. -/
theorem step_orderly (h : Orderly s) {t : System} {a : DistributionRuns.Action}
    (hstep : DistributionRuns.step s a = some t) : Orderly t := by
  cases a with
  | setRoster roster =>
      obtain rfl := Option.some.inj hstep
      exact h.of_flags rfl rfl
  | onMembershipsUpdate input =>
      simp only [DistributionRuns.step, Option.ite_none_right_eq_some, Option.some.injEq] at hstep
      obtain ⟨-, rfl⟩ := hstep
      exact (onMembershipsUpdate_spec (h.tick _) input).1
  | eagerSignalled i atMs input =>
      simp only [DistributionRuns.step] at hstep
      split at hstep
      · cases hstep
      · simp only [Option.ite_none_right_eq_some, Option.some.injEq] at hstep
        obtain ⟨-, rfl⟩ := hstep
        refine (ensureKeyDistribution_ensured ?_ input).orderly
        exact h.of_flags (recordSignalled_flags _ _ _ _) rfl
  | flushDueRotation checkedAt input =>
      simp only [DistributionRuns.step, Option.ite_none_right_eq_some, Option.some.injEq] at hstep
      obtain ⟨-, rfl⟩ := hstep
      exact flushDueRotation_orderly (h.tick _) checkedAt input
  | rolloutAnswered answer next =>
      simp only [DistributionRuns.step] at hstep
      split at hstep
      · rename_i p hp
        simp only [Option.ite_none_right_eq_some, Option.some.injEq] at hstep
        obtain ⟨-, rfl⟩ := hstep
        have busy : s.manager.keyDistributionInProgress = true := by simp [h.progress, hp]
        have same := afterSend_flags { s with clock := next.mintedAt } p
          (servedBy p.addressed answer)
        exact (followUp_followed ((congrArg Prod.fst same).trans busy) next).orderly
      · cases hstep
  | rolloutSignalled atMs next =>
      simp only [DistributionRuns.step] at hstep
      split at hstep
      · rename_i p hp
        simp only [Option.ite_none_right_eq_some, Option.some.injEq] at hstep
        obtain ⟨-, rfl⟩ := hstep
        have busy : s.manager.keyDistributionInProgress = true := by simp [h.progress, hp]
        have same := recordSignalled_flags s.manager p.key p.useAfterMs atMs
        refine (followUp_followed ?_ next).orderly
        exact (congrArg Prod.fst same).trans busy
      · cases hstep
  | retryUndeliveredKey memberId =>
      obtain rfl := Option.some.inj hstep
      have same := beginRetry_flags s.manager s.roster memberId
      unfold System.retryUndeliveredKey
      cases hb : beginRetry s.manager s.roster memberId with
      | mk m outcome =>
          rw [hb] at same
          cases outcome with
          | ended | sending => exact h.of_flags same rfl
  | retryAnswered i answer =>
      simp only [DistributionRuns.step] at hstep
      split at hstep
      · cases hstep
      · rename_i r hr
        obtain rfl := Option.some.inj hstep
        exact h.of_flags (finishRetry_flags s.manager r answer) rfl

end Systems

theorem start_orderly (setup : Setup) (roster : List MemberEvents.JoinedMembership)
    (key : List UInt8) (now : ℕ) : Orderly (DistributionRuns.start setup roster key now) := by
  have flags : flags ((EncryptionManager.new setup).join key now) = (false, false) := by
    unfold EncryptionManager.join
    split_ifs <;> rfl
  obtain ⟨inProgress, requested⟩ := Prod.ext_iff.mp flags
  exact ⟨inProgress, fun _ => requested⟩

/-- What each phase says of the system. A join awaits either the handler, before its
distribution, or its distribution; a handler of the loop awaits its distribution. -/
structure Placed (s : UpkeepRun) : Prop where
  orderly : Orderly s.system
  joining : ∀ distributed, s.phase = .joining distributed →
    s.system.rollout = none ∧ s.system.eager = [] ∧ s.system.retries = []
  awaiting : ∀ last, s.phase = .joinAwaits last →
    s.system.retries = [] ∧ s.system.manager.needNewDistribution = false ∧
      (s.system.rollout.isSome = true ∧ s.system.eager = [] ∨
        s.system.rollout = none ∧ ∃ key, s.system.eager = [key])
  handling : s.phase = .handlerAwaits → s.system.rollout.isSome = true

theorem polled_of_select {s : UpkeepRun} (h : s.phase = .select) : Polled s := fun _ => h

theorem polled_iff {s : UpkeepRun} (away : s.phase ≠ .select) (retries : s.system.retries = []) :
    Polled s ↔ sending s.system = false := by
  simp [Polled, SendOutstanding, away, retries]

section Phases
variable {s t : UpkeepRun}

/-- A step of the join's own call, which has nothing at the handler any more. -/
theorem joinAwaits_after (last : Bool) {u : System} (orderly : Orderly u)
    (retries : u.retries = []) (calm : u.manager.needNewDistribution = false)
    (eager : u.eager = []) :
    Placed ⟨u, (Phase.joinAwaits last).after u⟩ ∧
      (Polled ⟨u, (Phase.joinAwaits last).after u⟩ ↔ sending u = false) := by
  unfold Phase.after suspended
  cases hu : u.rollout with
  | none =>
      simp only [Option.isSome_none, eager, List.isEmpty_nil, Bool.not_true, Bool.or_self,
        Bool.false_eq_true, if_false]
      refine ⟨⟨orderly, fun _ _ => ⟨hu, eager, retries⟩, by simp, by simp⟩, ?_⟩
      exact polled_iff (s := ⟨u, .joining last⟩) (by simp) retries
  | some phase =>
      simp only [Option.isSome_some, Bool.true_or, if_true]
      have waiting : u.rollout.isSome = true := by simp [hu]
      refine ⟨⟨orderly, by simp, fun _ _ => ⟨retries, calm, .inl ⟨waiting, eager⟩⟩, by simp⟩, ?_⟩
      exact polled_iff (s := ⟨u, .joinAwaits last⟩) (by simp) retries

theorem handlerAwaits_after {u : System} (orderly : Orderly u) :
    Placed ⟨u, Phase.handlerAwaits.after u⟩ ∧
      (Polled ⟨u, Phase.handlerAwaits.after u⟩ ↔
        (u.rollout.isSome = true → sending u = false ∧ u.retries = [])) := by
  unfold Phase.after
  cases hu : u.rollout with
  | none =>
      simp only [Option.isSome_none, Bool.false_eq_true, if_false]
      refine ⟨⟨orderly, by simp, by simp, by simp⟩, ?_⟩
      exact iff_of_true (polled_of_select rfl) fun none => absurd none (by simp)
  | some phase =>
      simp only [Option.isSome_some, if_true, forall_const]
      refine ⟨⟨orderly, by simp, by simp, fun _ => by simp [hu]⟩, ?_⟩
      simp [Polled, SendOutstanding, not_or]

theorem select_placed {u : System} (orderly : Orderly u) :
    Placed ⟨u, .select⟩ ∧ Polled ⟨u, .select⟩ :=
  ⟨⟨orderly, by simp, by simp, by simp⟩, polled_of_select rfl⟩

theorem sending_isSome {u : System} (h : sending u = true) : u.rollout.isSome = true := by
  unfold sending at h
  split at h
  · rename_i hu
    simp [hu]
  · cases h

/-- The join's updates. -/
theorem joinUpdate_step (h : Placed s) {last : Bool} {input : LoopInput}
    (hstep : s.step (.joinUpdate last input) = some t) :
    Placed t ∧ (Polled t ↔ AwaitsNoSend s (.joinUpdate last input)) := by
  obtain ⟨system, phase⟩ := s
  cases phase with
  | joining distributed =>
    obtain ⟨idle, unheld, unsent⟩ := h.joining distributed rfl
    obtain ⟨u, hu, rfl⟩ := Option.map_eq_some_iff.mp hstep
    simp only [DistributionRuns.step, Option.ite_none_right_eq_some, Option.some.injEq] at hu
    obtain ⟨-, rfl⟩ := hu
    have orderly : Orderly { system with clock := input.next.mintedAt } := h.orderly.tick _
    by_cases eager : system.manager.config.manageMediaKeys = true ∧ signalsEagerly system = true
    · obtain ⟨managed, unsignalled⟩ := eager
      obtain ⟨key, signal, told⟩ := onMembershipsUpdate_eager
        (s := { system with clock := input.next.mintedAt }) input managed unsignalled
      rw [told]
      dsimp only at idle unheld unsent
      simp only [Phase.after, suspended, unheld, List.nil_append, List.isEmpty_cons, Bool.not_false,
        Bool.or_true, if_true]
      refine ⟨⟨⟨h.orderly.progress, h.orderly.requested⟩, by simp, fun _ _ => ?_, by simp⟩, ?_⟩
      · exact ⟨unsent, h.orderly.requested idle, .inr ⟨idle, key, rfl⟩⟩
      · refine iff_of_true ?_ fun _ told => ?_
        · exact (polled_iff (by simp) unsent).mpr (by simp [sending, idle])
        · simp [unsignalled] at told
    · have ready : system.manager.config.manageMediaKeys = true →
          signalsEagerly system = false := fun managed =>
        Bool.eq_false_iff.mpr fun unsignalled => eager ⟨managed, unsignalled⟩
      have ensured := (onMembershipsUpdate_ensured orderly input ready).of_keys
        (s := system) ⟨rfl, rfl, rfl, rfl, rfl⟩ rfl rfl rfl
      obtain ⟨placed, polled⟩ := joinAwaits_after last ensured.orderly
        (ensured.retries.trans unsent) (ensured.requested idle) (ensured.eager.trans unheld)
      refine ⟨placed, polled.trans ?_⟩
      rw [← Bool.not_eq_true, ensured.sends idle]
      simp only [AwaitsNoSend, not_and, not_not]
      exact ⟨fun all managed _ => all managed, fun all managed => all managed (ready managed)⟩
  | joinAwaits | select | handlerAwaits => cases hstep

/-- A beat, or the rotation's timer. -/
theorem flush_step (h : Placed s) {checkedAt : ℕ} {input : LoopInput}
    (hstep : s.step (.flush checkedAt input) = some t) :
    Placed t ∧ (Polled t ↔ AwaitsNoSend s (.flush checkedAt input)) := by
  obtain ⟨system, phase⟩ := s
  simp only [UpkeepRun.step, Option.ite_none_right_eq_some] at hstep
  obtain ⟨-, hstep⟩ := hstep
  obtain ⟨u, hu, rfl⟩ := Option.map_eq_some_iff.mp hstep
  simp only [DistributionRuns.step, Option.ite_none_right_eq_some, Option.some.injEq] at hu
  obtain ⟨-, rfl⟩ := hu
  have orderly : Orderly { system with clock := input.next.mintedAt } := h.orderly.tick _
  cases waiting : system.rollout.isSome with
  | true =>
      rw [if_pos rfl]
      obtain ⟨placed, polled⟩ := select_placed
        (flushDueRotation_orderly orderly checkedAt input)
      have inProgress : system.manager.keyDistributionInProgress = true :=
        h.orderly.progress.trans waiting
      exact ⟨placed, iff_of_true polled fun own => by simp [flushRuns, inProgress] at own⟩
  | false =>
      have idle : system.rollout = none := by simpa using waiting
      obtain ⟨runs, rests⟩ := flushDueRotation_spec orderly checkedAt input idle
      rw [if_neg Bool.false_ne_true]
      cases own : flushRuns system checkedAt with
      | true =>
          have ensured := (runs own).of_keys (s := system) ⟨rfl, rfl, rfl, rfl, rfl⟩
            rfl rfl rfl
          have managed : system.manager.config.manageMediaKeys = true := by
            simp only [flushRuns, Bool.and_eq_true] at own
            exact own.1.1
          obtain ⟨placed, polled⟩ := handlerAwaits_after ensured.orderly
          refine ⟨placed, polled.trans ?_⟩
          have sends := ensured.sends idle
          have waits := ensured.waits idle
          rw [and_iff_right managed] at sends waits
          rw [waits, ← Bool.not_eq_true, sends, not_not, ensured.retries]
          simp only [AwaitsNoSend, own, forall_const]
          constructor
          · intro all
            have nobody : addressedNow system input.first = [] := by
              by_contra somebody
              exact somebody (all (.inl somebody)).1
            exact ⟨nobody, fun signals => (all (.inr signals)).2⟩
          · rintro ⟨nobody, silent⟩ (somebody | signals)
            · exact absurd nobody somebody
            · exact ⟨nobody, silent signals⟩
      | false =>
          rw [rests own]
          have resting : Phase.handlerAwaits.after { system with clock := input.next.mintedAt } =
              .select := by simp [Phase.after, idle]
          rw [resting]
          obtain ⟨placed, polled⟩ := select_placed orderly
          exact ⟨placed, iff_of_true polled fun runs => by simp [own] at runs⟩

theorem Placed.handlerAwaits {u : System} (h : Placed s) (orderly : Orderly u)
    (waiting : s.system.rollout.isSome = true → u.rollout = s.system.rollout)
    (retries : u.retries = s.system.retries) (here : s.phase = .handlerAwaits) :
    Placed ⟨u, .handlerAwaits⟩ ∧ (Polled s → Polled ⟨u, .handlerAwaits⟩) := by
  have suspended := h.handling here
  have same := waiting suspended
  refine ⟨⟨orderly, by simp, by simp, fun _ => ?_⟩, fun polled outstanding => ?_⟩
  · rw [same]
    exact suspended
  · refine absurd (polled ?_) (by simp [here])
    unfold SendOutstanding sending at outstanding ⊢
    rwa [same, retries] at outstanding

theorem update_step (h : Placed s) {input : LoopInput}
    (hstep : s.step (.update input) = some t) : Placed t ∧ (Polled s → Polled t) := by
  obtain ⟨system, phase⟩ := s
  simp only [UpkeepRun.step, Option.ite_none_right_eq_some] at hstep
  obtain ⟨elsewhere, hstep⟩ := hstep
  obtain ⟨u, hu, rfl⟩ := Option.map_eq_some_iff.mp hstep
  simp only [DistributionRuns.step, Option.ite_none_right_eq_some, Option.some.injEq] at hu
  obtain ⟨-, rfl⟩ := hu
  have orderly : Orderly { system with clock := input.next.mintedAt } := h.orderly.tick _
  obtain ⟨orderly', waiting, retries⟩ := onMembershipsUpdate_spec orderly input
  obtain rfl | rfl := elsewhere
  · exact ⟨(select_placed orderly').1, fun _ => (select_placed orderly').2⟩
  · exact h.handlerAwaits orderly' waiting retries rfl

/-- The handler has taken the signal that came before a distribution. -/
theorem eagerSignalled_step (h : Placed s) {i atMs : ℕ} {input : LoopInput}
    (hstep : s.step (.eagerSignalled i atMs input) = some t) :
    Placed t ∧ (Polled s → (Polled t ↔ AwaitsNoSend s (.eagerSignalled i atMs input))) := by
  obtain ⟨system, phase⟩ := s
  obtain ⟨v, hv, rfl⟩ := Option.map_eq_some_iff.mp hstep
  simp only [DistributionRuns.step] at hv
  split at hv
  · cases hv
  rename_i key hkey
  simp only [Option.ite_none_right_eq_some, Option.some.injEq] at hv
  obtain ⟨-, rfl⟩ := hv
  generalize hu : ({ system with
    manager := recordSignalled system.manager key 0 atMs
    eager := system.eager.eraseIdx i
    clock := input.next.mintedAt } : System) = u
  have same : SameKeys system u ∧ Orderly u ∧ u.rollout = system.rollout ∧
      u.retries = system.retries ∧ u.eager = system.eager.eraseIdx i := by
    subst hu
    unfold recordSignalled
    split_ifs <;> exact ⟨⟨rfl, rfl, rfl, rfl, rfl⟩, ⟨h.orderly.progress, h.orderly.requested⟩,
      rfl, rfl, rfl⟩
  clear hu
  obtain ⟨keys, orderly, rollout, retries, eager⟩ := same
  have ensured := ensureKeyDistribution_ensured orderly input
  cases phase with
  | joining distributed =>
    simp [show system.eager = [] from (h.joining distributed rfl).2.1] at hkey
  | joinAwaits last =>
    obtain ⟨unsent, calm, ⟨-, unheld⟩ | ⟨idle, held, one⟩⟩ := h.awaiting last rfl
    · simp [show system.eager = [] from unheld] at hkey
    · dsimp only at unsent calm idle one
      obtain rfl : i = 0 := by
        have bound := (List.getElem?_eq_some_iff.mp hkey).1
        rw [one] at bound
        simpa using bound
      rw [one] at eager
      obtain ⟨placed, polled⟩ := joinAwaits_after last ensured.orderly
        (ensured.retries.trans (retries.trans unsent)) (ensured.requested (rollout.trans idle))
        (ensured.eager.trans eager)
      have config : u.manager.config = system.manager.config :=
        EncryptionManager.config_of_setup keys.setup
      refine ⟨placed, fun _ => polled.trans ?_⟩
      rw [← Bool.not_eq_true, ensured.sends (rollout.trans idle), config, keys.addressed]
      simp [AwaitsNoSend]
  | select =>
    have selected := select_placed ensured.orderly
    exact ⟨selected.1, fun _ => iff_of_true selected.2 (by simp [AwaitsNoSend])⟩
  | handlerAwaits =>
    have suspended := h.handling rfl
    have same := (ensured.waiting (by rw [rollout]; exact suspended)).trans rollout
    have still : Phase.handlerAwaits.after (u.ensureKeyDistribution input) = .handlerAwaits := by
      unfold Phase.after
      dsimp only
      rw [if_pos (by rw [same]; exact suspended)]
    rw [still]
    obtain ⟨placed, polled⟩ := h.handlerAwaits ensured.orderly (fun _ => same)
      (ensured.retries.trans retries) rfl
    exact ⟨placed, fun now => iff_of_true (polled now) (by simp [AwaitsNoSend])⟩

/-- The host answers the send of a rollout. -/
theorem rolloutAnswered_step (h : Placed s) {answer : SendAnswer} {next : RolloutInput}
    (hstep : s.step (.rolloutAnswered answer next) = some t) :
    Placed t ∧ (Polled s → Polled t) := by
  obtain ⟨system, phase⟩ := s
  obtain ⟨v, hv, rfl⟩ := Option.map_eq_some_iff.mp hstep
  simp only [DistributionRuns.step] at hv
  split at hv
  case h_2 => cases hv
  rename_i p hp
  simp only [Option.ite_none_right_eq_some, Option.some.injEq] at hv
  obtain ⟨-, rfl⟩ := hv
  have outstanding : SendOutstanding system := .inl (by simp [sending, hp])
  have waiting : system.rollout.isSome = true := by simp [hp]
  obtain ⟨-, -, retries, eager⟩ := afterSend_rollout
    (s := { system with clock := next.mintedAt }) p (servedBy p.addressed answer)
  obtain ⟨inProgress, requested⟩ := Prod.ext_iff.mp <|
    afterSend_flags { system with clock := next.mintedAt } p (servedBy p.addressed answer)
  have followed := followUp_followed (inProgress.trans (h.orderly.progress.trans waiting)) next
  cases phase with
  | joining distributed =>
    simp [show system.rollout = none from (h.joining distributed rfl).1] at hp
  | joinAwaits last =>
    obtain ⟨unsent, calm, ⟨-, unheld⟩ | ⟨idle, -⟩⟩ := h.awaiting last rfl
    · have placed := (joinAwaits_after last followed.orderly
        (followed.retries.trans (retries.trans unsent)) (followed.calm (requested.trans calm))
        (followed.eager.trans (eager.trans unheld))).1
      exact ⟨placed, fun polled => absurd (polled outstanding) (by simp)⟩
    · simp [show system.rollout = none from idle] at hp
  | select =>
    have selected := select_placed followed.orderly
    exact ⟨selected.1, fun _ => selected.2⟩
  | handlerAwaits =>
    exact ⟨(handlerAwaits_after followed.orderly).1,
      fun polled => absurd (polled outstanding) (by simp)⟩

/-- The handler has taken the signal of a rollout's new key. -/
theorem rolloutSignalled_step (h : Placed s) {atMs : ℕ} {next : RolloutInput}
    (hstep : s.step (.rolloutSignalled atMs next) = some t) :
    Placed t ∧ (Polled s → (Polled t ↔ AwaitsNoSend s (.rolloutSignalled atMs next))) := by
  obtain ⟨system, phase⟩ := s
  obtain ⟨v, hv, rfl⟩ := Option.map_eq_some_iff.mp hstep
  simp only [DistributionRuns.step] at hv
  split at hv
  case h_2 => cases hv
  rename_i p hp
  simp only [Option.ite_none_right_eq_some, Option.some.injEq] at hv
  obtain ⟨-, rfl⟩ := hv
  have waiting : system.rollout.isSome = true := by simp [hp]
  generalize hu : ({ system with
    manager := recordSignalled system.manager p.key p.useAfterMs atMs
    rollout := none
    clock := next.mintedAt } : System) = u
  have same : SameKeys system u ∧ flags u.manager = flags system.manager ∧ u.rollout = none ∧
      u.retries = system.retries ∧ u.eager = system.eager := by
    subst hu
    unfold recordSignalled
    split_ifs <;> exact ⟨⟨rfl, rfl, rfl, rfl, rfl⟩, rfl, rfl, rfl, rfl⟩
  clear hu
  obtain ⟨keys, same, idle, retries, eager⟩ := same
  obtain ⟨inProgress, requested⟩ := Prod.ext_iff.mp same
  have followed := followUp_followed (inProgress.trans (h.orderly.progress.trans waiting)) next
  cases phase with
  | joining distributed =>
    simp [show system.rollout = none from (h.joining distributed rfl).1] at hp
  | joinAwaits last =>
    obtain ⟨unsent, calm, ⟨-, unheld⟩ | ⟨idle', -⟩⟩ := h.awaiting last rfl
    · have answered := requested.trans calm
      obtain ⟨placed, polled⟩ := joinAwaits_after last followed.orderly
        (followed.retries.trans (retries.trans unsent)) (followed.calm answered)
        (followed.eager.trans (eager.trans unheld))
      refine ⟨placed, fun _ => iff_of_true (polled.mpr ?_) ?_⟩
      · simp [sending, followed.ended idle answered]
      · simp [AwaitsNoSend, show system.manager.needNewDistribution = false from calm]
    · simp [show system.rollout = none from idle'] at hp
  | select =>
    have selected := select_placed followed.orderly
    exact ⟨selected.1, fun _ => iff_of_true selected.2 (by simp [AwaitsNoSend])⟩
  | handlerAwaits =>
    obtain ⟨placed, polled⟩ := handlerAwaits_after followed.orderly
    refine ⟨placed, fun now => polled.trans ?_⟩
    have unsent : system.retries = [] := by
      by_contra outstanding
      exact absurd (now (.inr outstanding)) (by simp)
    have nothing : (u.followUp next).retries = [] := followed.retries.trans (retries.trans unsent)
    simp only [AwaitsNoSend, nothing, and_true, ne_eq, reduceCtorEq, not_false_eq_true,
      forall_const]
    constructor
    · intro quiet again
      by_contra somebody
      have sends := (followed.again idle (requested.trans again)).mpr (by rwa [keys.addressed])
      have silent := quiet (sending_isSome sends)
      rw [sends] at silent
      cases silent
    · intro nobody suspended
      cases again : system.manager.needNewDistribution with
      | false =>
          rw [followed.ended idle (requested.trans again)] at suspended
          cases suspended
      | true =>
          have sends := followed.again idle (requested.trans again)
          rw [keys.addressed, nobody again] at sends
          simpa using sends

theorem retry_step (h : Placed s) {memberId : String}
    (hstep : s.step (.retry memberId) = some t) : Placed t ∧ Polled t := by
  obtain ⟨system, phase⟩ := s
  simp only [UpkeepRun.step, Option.ite_none_right_eq_some] at hstep
  obtain ⟨rfl, hstep⟩ := hstep
  obtain ⟨u, hu, rfl⟩ := Option.map_eq_some_iff.mp hstep
  exact select_placed (step_orderly h.orderly hu)

theorem retryAnswered_step (h : Placed s) {i : ℕ} {answer : SendAnswer}
    (hstep : s.step (.retryAnswered i answer) = some t) : Placed t ∧ Polled t := by
  obtain ⟨system, phase⟩ := s
  simp only [UpkeepRun.step, Option.ite_none_right_eq_some] at hstep
  obtain ⟨rfl, hstep⟩ := hstep
  obtain ⟨u, hu, rfl⟩ := Option.map_eq_some_iff.mp hstep
  exact select_placed (step_orderly h.orderly hu)

theorem step_placed (h : Placed s) {a : Action} (hstep : s.step a = some t) :
    Placed t ∧ (Polled s → (Polled t ↔ AwaitsNoSend s a)) := by
  cases a with
  | setRoster roster =>
      obtain rfl := Option.some.inj hstep
      refine ⟨⟨⟨h.orderly.progress, h.orderly.requested⟩, h.joining, h.awaiting, h.handling⟩, ?_⟩
      exact fun polled => iff_of_true polled trivial
  | joinUpdate last input =>
      obtain ⟨placed, polled⟩ := joinUpdate_step h hstep
      exact ⟨placed, fun _ => polled⟩
  | spawn =>
      simp only [UpkeepRun.step, Option.ite_none_right_eq_some, Option.some.injEq] at hstep
      obtain ⟨-, rfl⟩ := hstep
      obtain ⟨placed, polled⟩ := select_placed h.orderly
      exact ⟨placed, fun _ => iff_of_true polled trivial⟩
  | flush checkedAt input =>
      obtain ⟨placed, polled⟩ := flush_step h hstep
      exact ⟨placed, fun _ => polled⟩
  | update input =>
      obtain ⟨placed, polled⟩ := update_step h hstep
      exact ⟨placed, fun now => iff_of_true (polled now) trivial⟩
  | eagerSignalled i atMs input => exact eagerSignalled_step h hstep
  | rolloutAnswered answer next =>
      obtain ⟨placed, polled⟩ := rolloutAnswered_step h hstep
      exact ⟨placed, fun now => iff_of_true (polled now) trivial⟩
  | rolloutSignalled atMs next => exact rolloutSignalled_step h hstep
  | retry memberId =>
      obtain ⟨placed, polled⟩ := retry_step h hstep
      exact ⟨placed, fun _ => iff_of_true polled trivial⟩
  | retryAnswered i answer =>
      obtain ⟨placed, polled⟩ := retryAnswered_step h hstep
      exact ⟨placed, fun _ => iff_of_true polled trivial⟩

end Phases

theorem start_placed (setup : Setup) (roster : List MemberEvents.JoinedMembership)
    (key : List UInt8) (now : ℕ) :
    Placed (UpkeepRun.start setup roster key now) :=
  ⟨start_orderly setup roster key now, fun _ _ => ⟨rfl, rfl, rfl⟩, nofun, nofun⟩

/-- All along a run of a join and its upkeep every outstanding send is polled at the
select, exactly if neither the join nor a handler of the loop awaits one. -/
theorem sends_polled_iff (setup : Setup) (roster : List MemberEvents.JoinedMembership)
    (key : List UInt8) (now : ℕ) (actions : List Action) (s : UpkeepRun)
    (reach : run UpkeepRun.step (UpkeepRun.start setup roster key now) actions = some s) :
    Always UpkeepRun.step Polled (UpkeepRun.start setup roster key now) actions ↔
      Admissible UpkeepRun.step AwaitsNoSend (UpkeepRun.start setup roster key now) actions := by
  refine always_iff_admissible (I := Placed) (fun _ _ _ h hstep => (step_placed h hstep).1)
    (fun _ _ _ h polled hstep => (step_placed h hstep).2 polled)
    (start_placed setup roster key now) ?_ reach
  rintro (sends | retries)
  · cases sends
  · exact absurd rfl retries

section Runs

/-- Alice joins an empty call, serves bob once the loop runs, and the beat rotates the key
after he left, with nobody to send it to. -/
def servedFromTheLoop : List Action :=
  [.joinUpdate true (inputAt 0), .spawn, .setRoster [bob], .update (inputAt 1000),
    .rolloutAnswered (.ok [.sent ⟨"@bob:x", "B"⟩]) (inputAt 1000).next,
    .setRoster [], .update (inputAt 2000), .flush 10000 (inputAt 10000)]

theorem polled_with_bob :
    Always UpkeepRun.step Polled (UpkeepRun.start alice [] [1] 0) servedFromTheLoop := by
  obtain ⟨s, reach⟩ := Option.isSome_iff_exists.mp
    (show (run UpkeepRun.step (UpkeepRun.start alice [] [1] 0) servedFromTheLoop).isSome = true by
      decide)
  exact (sends_polled_iff alice [] [1] 0 servedFromTheLoop s reach).mpr (by decide)

/-- The join itself awaits the send of the first key to bob, before the loop exists. -/
theorem not_always_polled :
    ¬ ∀ (setup : Setup) (roster : List MemberEvents.JoinedMembership) (key : List UInt8)
      (now : ℕ) (actions : List Action),
        Always UpkeepRun.step Polled (UpkeepRun.start setup roster key now) actions := by
  intro all
  exact absurd (all alice [bob] [1] 0 [.joinUpdate true (inputAt 0)]) (by decide)

/-- The beat awaits the send of the key that replaces an old one. -/
example : ¬ Always UpkeepRun.step Polled (UpkeepRun.start alice [] [1] 0)
    [.joinUpdate true (inputAt 0), .spawn, .setRoster [bob],
      .flush 5400000 (inputAt 5400000)] := by decide

end Runs

end MatrixRtc.UpkeepPolling

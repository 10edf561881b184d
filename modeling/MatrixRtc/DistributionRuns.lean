import MatrixRtc.KeyRollout
import MatrixRtc.StepRuns

/-!
# Interleaved distributions

The encryption manager as the session and its upkeep drive it: membership
updates, flushes of a due rotation, retries of undelivered keys and roster
changes, each of which may run while another waits for the host or for the signal
handler. At most one rollout is in progress; a request made meanwhile is answered
by one follow-up. The readings of the clock never decrease.

What arrives from peers is not part of these runs: the inbound half of a
membership update touches none of the fields below.
-/
namespace MatrixRtc.DistributionRuns
open HostAnswers MemberEvents EncryptionManagers KeyRollout StepRuns

/-- Where a rollout in progress is suspended. -/
inductive RolloutPhase where
  | sending (p : PendingRollout)
  | signalling (p : PendingRollout)
deriving DecidableEq

structure System where
  manager : EncryptionManager
  roster : List JoinedMembership
  /-- the last reading of the clock -/
  clock : ℕ
  rollout : Option RolloutPhase
  /-- membership updates suspended while the handler takes the eager signal -/
  eager : List OutboundEncryptionKey
  retries : List PendingRetry
  /-- the participants of the roster the latest rollout read -/
  lastRead : List ParticipantDeviceInfo
  sent : List KeySend
  signals : List KeyMaterialSignal

/-- The rollout an operation starts and the follow-up it may have to run. -/
structure LoopInput where
  first : RolloutInput
  next : RolloutInput
deriving DecidableEq

inductive Action where
  | setRoster (roster : List JoinedMembership)
  | onMembershipsUpdate (input : LoopInput)
  | eagerSignalled (i : ℕ) (atMs : ℕ) (input : LoopInput)
  | flushDueRotation (checkedAt : ℕ) (input : LoopInput)
  | rolloutAnswered (answer : SendAnswer) (next : RolloutInput)
  | rolloutSignalled (atMs : ℕ) (next : RolloutInput)
  | retryUndeliveredKey (memberId : String)
  | retryAnswered (i : ℕ) (answer : SendAnswer)

/-- Clock readings in the order they are made. -/
def RolloutInput.Reads (clock : ℕ) (input : RolloutInput) : Prop :=
  clock ≤ input.now ∧ input.now ≤ input.mintedAt

def LoopInput.Reads (clock : ℕ) (input : LoopInput) : Prop :=
  RolloutInput.Reads clock input.first ∧ RolloutInput.Reads input.first.mintedAt input.next

instance (clock : ℕ) (input : RolloutInput) : Decidable (RolloutInput.Reads clock input) :=
  inferInstanceAs (Decidable (_ ∧ _))

instance (clock : ℕ) (input : LoopInput) : Decidable (LoopInput.Reads clock input) :=
  inferInstanceAs (Decidable (_ ∧ _))

namespace System

/-- The rollout after its send, up to the handler if a new key is signalled. -/
def afterSend (s : System) (p : PendingRollout) (reachedAll : List ParticipantDeviceInfo) :
    System :=
  let m := finishRollout s.manager p reachedAll
  let signal := if p.rotating then signalKeyToApp m p.key p.useAfterMs else none
  match signal with
  | none => { s with manager := m, rollout := none }
  | some signal =>
      { s with
        manager := m
        rollout := some (.signalling p)
        signals := s.signals ++ [signal] }

/-- One rollout up to where it is suspended; `rollout` is `none` if it is not. -/
def rolloutOnce (s : System) (input : RolloutInput) : System :=
  let (m, pending) := beginRollout s.manager s.roster input
  let s := { s with manager := m, lastRead := s.manager.currentParticipants s.roster }
  match pending with
  | none => { s with rollout := none }
  | some p =>
      match rolloutSend m p with
      | none => afterSend s p []
      | some send => { s with rollout := some (.sending p), sent := s.sent ++ [send] }

/-- The end of the loop of `ensure_key_distribution`, if no rollout is suspended. -/
def closeLoop (s : System) : System :=
  match s.rollout with
  | some _ => s
  | none => { s with manager := { s.manager with keyDistributionInProgress := false } }

/-- A request made during the rollout is taken and answered by one more rollout.
Nothing in between can make another request, so the loop then ends. -/
def followUp (s : System) (next : RolloutInput) : System :=
  match s.rollout with
  | some _ => s
  | none =>
      if s.manager.needNewDistribution then
        closeLoop
          (rolloutOnce { s with manager := { s.manager with needNewDistribution := false } } next)
      else closeLoop s

def ensureKeyDistribution (s : System) (input : LoopInput) : System :=
  if s.manager.config.manageMediaKeys = false then s
  else if s.manager.keyDistributionInProgress then
    { s with manager := { s.manager with needNewDistribution := true } }
  else
    followUp
      (rolloutOnce
        { s with manager := { s.manager with keyDistributionInProgress := true } } input.first)
      input.next

/-- The outbound half of `on_memberships_update` up to the handler. -/
def onMembershipsUpdate (s : System) (input : LoopInput) : System :=
  if s.manager.config.manageMediaKeys = false then s
  else
    match s.manager.outboundKey with
    | none => s
    | some key =>
        if s.manager.signalledKey.map SignalledKey.keyIndex ≠ some key.keyIndex then
          match signalKeyToApp s.manager key 0 with
          | none => ensureKeyDistribution s input
          | some signal => { s with eager := s.eager ++ [key], signals := s.signals ++ [signal] }
        else ensureKeyDistribution s input

def flushDueRotation (s : System) (checkedAt : ℕ) (input : LoopInput) : System :=
  match s.manager.rotationDueAt with
  | none => s
  | some dueAt => if checkedAt < dueAt then s else ensureKeyDistribution s input

def retryUndeliveredKey (s : System) (memberId : String) : System :=
  match beginRetry s.manager s.roster memberId with
  | (m, .ended _) => { s with manager := m }
  | (m, .sending r) =>
      { s with manager := m, retries := s.retries ++ [r], sent := s.sent ++ [retrySend m r] }

end System

/-- One step of the interleaving. -/
def step (s : System) : Action → Option System
  | .setRoster roster => some { s with roster := roster }
  | .onMembershipsUpdate input =>
      if input.Reads s.clock then
        some ({ s with clock := input.next.mintedAt }.onMembershipsUpdate input)
      else none
  | .eagerSignalled i atMs input =>
      match s.eager[i]? with
      | none => none
      | some key =>
          if s.clock ≤ atMs ∧ input.Reads atMs then
            some ({ s with
              manager := recordSignalled s.manager key 0 atMs
              eager := s.eager.eraseIdx i
              clock := input.next.mintedAt }.ensureKeyDistribution input)
          else none
  | .flushDueRotation checkedAt input =>
      if s.clock ≤ checkedAt ∧ input.Reads checkedAt then
        some ({ s with clock := input.next.mintedAt }.flushDueRotation checkedAt input)
      else none
  | .rolloutAnswered answer next =>
      match s.rollout with
      | some (.sending p) =>
          if RolloutInput.Reads s.clock next then
            some (({ s with clock := next.mintedAt }.afterSend p
              (servedBy p.addressed answer)).followUp next)
          else none
      | _ => none
  | .rolloutSignalled atMs next =>
      match s.rollout with
      | some (.signalling p) =>
          if s.clock ≤ atMs ∧ RolloutInput.Reads atMs next then
            some ({ s with
              manager := recordSignalled s.manager p.key p.useAfterMs atMs
              rollout := none
              clock := next.mintedAt }.followUp next)
          else none
      | _ => none
  | .retryUndeliveredKey memberId => some (s.retryUndeliveredKey memberId)
  | .retryAnswered i answer =>
      match s.retries[i]? with
      | none => none
      | some r =>
          some { s with
            manager := (finishRetry s.manager r answer).1
            retries := s.retries.eraseIdx i }

/-- A session that has just joined: the first key is in place and shared with
nobody, and no rollout has run. -/
def start (setup : Setup) (roster : List JoinedMembership) (key : List UInt8) (now : ℕ) :
    System :=
  { manager := (EncryptionManager.new setup).join key now
    roster := roster
    clock := now
    rollout := none
    eager := []
    retries := []
    lastRead := []
    sent := []
    signals := [] }

/-- The participation is among these participants. -/
def Present (participants : List ParticipantDeviceInfo) (x : Participation) : Prop :=
  ∃ p ∈ participants, p.participation = x

instance (participants : List ParticipantDeviceInfo) (x : Participation) :
    Decidable (Present participants x) :=
  inferInstanceAs (Decidable (∃ p ∈ participants, p.participation = x))

/-- Whoever holds the key in place and is not among `participants` makes its
rotation due at the end of its freshness. -/
def Locked (m : EncryptionManager) (participants : List ParticipantDeviceInfo) : Prop :=
  ∀ key, m.outboundKey = some key → ∀ x ∈ key.sharedWith,
    ¬ Present participants x.participation →
      m.rotationDueAt = some (satAdd key.creationTs m.config.freshnessMs)

/-- A rollout that replaces the key is at its send. -/
def rotationInFlight (s : System) : Bool :=
  match s.rollout with
  | some (.sending p) => p.rotating
  | _ => false

structure Settled (s : System) : Prop where
  addressed : ∀ p, s.rollout = some (.sending p) →
    ∀ a ∈ p.addressed, Present s.lastRead a.target.participation
  locked : rotationInFlight s = false → Locked s.manager s.lastRead

structure Inv (s : System) : Prop extends Settled s where
  progress : s.manager.keyDistributionInProgress = s.rollout.isSome

theorem locked_setRotationDueAt {m : EncryptionManager} {current : OutboundEncryptionKey}
    {participants : List ParticipantDeviceInfo} {now : ℕ} (h : m.outboundKey = some current) :
    Locked (setRotationDueAt m (some (expiresAt m.config current participants now)))
      participants := by
  intro key hkey x hx absent
  obtain rfl : current = key := Option.some.inj (h.symm.trans hkey)
  have gone : left current participants ≠ [] := by
    refine List.ne_nil_of_mem (mem_left.mpr ⟨hx, fun p hp same => absent ⟨p, hp, same⟩⟩)
  simp only [setRotationDueAt, expiresAt_of_left gone]

/-- What the first part of a rollout leaves behind, whatever the state before. -/
theorem beginRollout_settles {m m' : EncryptionManager} {roster : List JoinedMembership}
    {input : RolloutInput} {pending : Option PendingRollout}
    (h : beginRollout m roster input = (m', pending)) :
    (∀ p ∈ pending, ∀ a ∈ p.addressed,
      Present (m.currentParticipants roster) a.target.participation) ∧
    ((∀ p ∈ pending, p.rotating = false) → Locked m' (m.currentParticipants roster)) := by
  have spec := beginRollout_spec m roster input
  rw [h] at spec
  cases spec with
  | noKey hk hm hp =>
      subst hm hp
      refine ⟨by simp, fun _ key hkey => ?_⟩
      exact absurd (hk.symm.trans hkey) (by simp)
  | nothing hk kept nobody hm hp =>
      subst hm hp
      exact ⟨by simp, fun _ => locked_setRotationDueAt hk⟩
  | rotates hk due hm hp =>
      subst hp
      refine ⟨fun p hp a ha => ?_, fun none => ?_⟩
      · obtain rfl := Option.some.inj hp
        exact ⟨a.target, (mem_addressAll ha).1, rfl⟩
      · exact absurd (none _ rfl) (by simp)
  | shares hk kept waiting hm hp =>
      subst hm hp
      refine ⟨fun p hp a ha => ?_, fun _ => locked_setRotationDueAt hk⟩
      obtain rfl := Option.some.inj hp
      exact ⟨a.target, (mem_joined.mp (mem_addressAll ha).1).1, rfl⟩

/-- The two flags of `ensure_key_distribution`, which a rollout does not touch. -/
def flags (m : EncryptionManager) : Bool × Bool :=
  (m.keyDistributionInProgress, m.needNewDistribution)

theorem beginRollout_flags (m : EncryptionManager) (roster : List JoinedMembership)
    (input : RolloutInput) : flags (beginRollout m roster input).1 = flags m := by
  obtain ⟨-, -, progress, requested⟩ := beginRollout_frame m roster input
  exact Prod.ext progress requested

/-- Recording recipients that were present keeps leavers locked out. -/
theorem finishRollout_locked {m : EncryptionManager} {p : PendingRollout}
    {reachedAll participants : List ParticipantDeviceInfo}
    (present : ∀ t ∈ reachedAll, Present participants t.participation)
    (locked : p.rotating = false → Locked m participants) :
    Locked (finishRollout m p reachedAll) participants := by
  intro key hkey x hx absent
  cases hr : p.rotating with
  | true =>
      simp only [finishRollout, hr, if_true, Option.some.injEq] at hkey
      subst hkey
      exact absurd (present x hx) absent
  | false =>
      simp only [finishRollout, hr, Bool.false_eq_true, if_false, Option.map_eq_some_iff] at hkey ⊢
      obtain ⟨k, hk, rfl⟩ := hkey
      rcases mem_addHolders hx with hx | hx
      · exact locked hr k hk x hx absent
      · exact absurd (present x hx) absent

theorem finishRollout_flags (m : EncryptionManager) (p : PendingRollout)
    (reachedAll : List ParticipantDeviceInfo) :
    flags (finishRollout m p reachedAll) = flags m := by
  unfold finishRollout
  split_ifs <;> rfl

theorem afterSend_settled {s : System} {p : PendingRollout}
    {reachedAll : List ParticipantDeviceInfo}
    (present : ∀ t ∈ reachedAll, Present s.lastRead t.participation)
    (locked : p.rotating = false → Locked s.manager s.lastRead) :
    Settled (s.afterSend p reachedAll) ∧
      flags (s.afterSend p reachedAll).manager = flags s.manager := by
  have keep := finishRollout_locked present locked
  unfold System.afterSend
  dsimp only
  split
  · exact ⟨⟨by simp, fun _ => keep⟩, finishRollout_flags _ _ _⟩
  · exact ⟨⟨by simp, fun _ => keep⟩, finishRollout_flags _ _ _⟩

/-- A rollout settles whatever state it starts from. -/
theorem rolloutOnce_settled (s : System) (input : RolloutInput) :
    Settled (s.rolloutOnce input) ∧ flags (s.rolloutOnce input).manager = flags s.manager := by
  have same := beginRollout_flags s.manager s.roster input
  unfold System.rolloutOnce
  cases hb : beginRollout s.manager s.roster input with
  | mk m pending =>
      rw [hb] at same
      obtain ⟨present, locked⟩ := beginRollout_settles hb
      cases pending with
      | none => exact ⟨⟨by simp, fun _ => locked (by simp)⟩, same⟩
      | some p =>
          dsimp only
          split
          · have none_reached : ∀ t ∈ ([] : List ParticipantDeviceInfo),
                Present (s.manager.currentParticipants s.roster) t.participation := by simp
            have kept := afterSend_settled
              (s := { s with manager := m, lastRead := s.manager.currentParticipants s.roster })
              (p := p) none_reached (fun hr => locked (by simpa using hr))
            exact ⟨kept.1, kept.2.trans same⟩
          · refine ⟨⟨fun q hq => ?_, fun hr => locked ?_⟩, same⟩
            · cases hq
              exact present p rfl
            · simpa [rotationInFlight] using hr

/-- The two flags of `ensure_key_distribution` set to these values. -/
def System.withFlags (s : System) (inProgress requested : Bool) : System :=
  { s with manager := { s.manager with
      keyDistributionInProgress := inProgress
      needNewDistribution := requested } }

/-- A property that the two flags do not matter to, and that a rollout keeps where `ok`
lets it begin. -/
structure KeptByRollouts (P : System → Prop) (ok : System → RolloutInput → Prop) : Prop where
  unflagged : ∀ {s : System} (inProgress requested : Bool), P s →
    P (s.withFlags inProgress requested)
  begins : ∀ {s : System} (inProgress requested : Bool) {input : RolloutInput}, ok s input →
    ok (s.withFlags inProgress requested) input
  rollout : ∀ {s : System} {input : RolloutInput}, P s → ok s input → P (s.rolloutOnce input)

namespace KeptByRollouts
variable {P : System → Prop} {ok : System → RolloutInput → Prop} {s : System}

theorem closeLoop (kept : KeptByRollouts P ok) (h : P s) : P s.closeLoop := by
  unfold System.closeLoop
  split
  · exact h
  · exact kept.unflagged false s.manager.needNewDistribution h

theorem followUp (kept : KeptByRollouts P ok) (h : P s) {next : RolloutInput}
    (again : s.rollout = none → s.manager.needNewDistribution = true → ok s next) :
    P (s.followUp next) := by
  unfold System.followUp
  split
  · exact h
  · rename_i idle
    split_ifs with requested
    · refine kept.closeLoop (kept.rollout ?_ ?_)
      · exact kept.unflagged s.manager.keyDistributionInProgress false h
      · exact kept.begins s.manager.keyDistributionInProgress false (again idle requested)
    · exact kept.closeLoop h

/-- A request runs a rollout of its own if none is in progress, and one more if a request
was left over. -/
theorem ensureKeyDistribution (kept : KeptByRollouts P ok) (h : P s) {input : LoopInput}
    (first : s.manager.config.manageMediaKeys = true →
      s.manager.keyDistributionInProgress = false → ok s input.first)
    (again : s.manager.keyDistributionInProgress = false →
      s.manager.needNewDistribution = true → ∀ t, ok t input.next) :
    P (s.ensureKeyDistribution input) := by
  unfold System.ensureKeyDistribution
  split_ifs with unmanaged inProgress
  · exact h
  · exact kept.unflagged s.manager.keyDistributionInProgress true h
  · rw [Bool.not_eq_true] at inProgress
    have runs := first (by simpa using unmanaged) inProgress
    have rolled : P (System.rolloutOnce { s with
        manager := { s.manager with keyDistributionInProgress := true } } input.first) :=
      kept.rollout (kept.unflagged true s.manager.needNewDistribution h)
        (kept.begins true s.manager.needNewDistribution runs)
    refine kept.followUp rolled fun _ requested => again inProgress ?_ _
    have same := (rolloutOnce_settled { s with
      manager := { s.manager with keyDistributionInProgress := true } } input.first).2
    exact (congrArg Prod.snd same).symm.trans requested

theorem flushDueRotation (kept : KeptByRollouts P ok) (h : P s) {checkedAt : ℕ}
    {input : LoopInput}
    (first : ∀ due, s.manager.rotationDueAt = some due → due ≤ checkedAt →
      s.manager.config.manageMediaKeys = true →
        s.manager.keyDistributionInProgress = false → ok s input.first)
    (again : s.manager.keyDistributionInProgress = false →
      s.manager.needNewDistribution = true → ∀ t, ok t input.next) :
    P (s.flushDueRotation checkedAt input) := by
  unfold System.flushDueRotation
  split
  · exact h
  · rename_i due hdue
    split_ifs with early
    · exact h
    · exact kept.ensureKeyDistribution h (first due hdue (not_lt.mp early)) again

end KeptByRollouts

theorem afterSend_flags (s : System) (p : PendingRollout)
    (reachedAll : List ParticipantDeviceInfo) :
    flags (s.afterSend p reachedAll).manager = flags s.manager := by
  have same := finishRollout_flags s.manager p reachedAll
  unfold System.afterSend
  dsimp only
  split <;> exact same

theorem dropOwed_flags (m : EncryptionManager) (owed : Undelivered) :
    flags (dropOwed m owed) = flags m := by
  unfold dropOwed
  split_ifs <;> rfl

theorem beginRetry_flags (m : EncryptionManager) (roster : List JoinedMembership)
    (memberId : String) : flags (beginRetry m roster memberId).1 = flags m := by
  unfold beginRetry
  split
  · rfl
  · split
    · exact dropOwed_flags m _
    · split <;> rfl

theorem finishRetry_flags (m : EncryptionManager) (r : PendingRetry) (answer : SendAnswer) :
    flags (finishRetry m r answer).1 = flags m := by
  unfold finishRetry
  split
  · rfl
  · split_ifs
    · rfl
    · exact dropOwed_flags _ r.owed

theorem recordSignalled_flags (m : EncryptionManager) (key : OutboundEncryptionKey)
    (useAfter atMs : ℕ) : flags (recordSignalled m key useAfter atMs) = flags m := by
  unfold recordSignalled
  split_ifs <;> rfl

def InProgress (s : System) : Prop :=
  s.manager.keyDistributionInProgress = s.rollout.isSome

theorem closeLoop_inProgress {s : System}
    (busy : s.manager.keyDistributionInProgress = true) : InProgress s.closeLoop := by
  unfold System.closeLoop
  cases phase : s.rollout with
  | some suspended =>
      rw [InProgress, phase, busy]
      rfl
  | none => rfl

theorem followUp_inProgress {s : System}
    (busy : s.manager.keyDistributionInProgress = true) (next : RolloutInput) :
    InProgress (s.followUp next) := by
  unfold System.followUp
  cases phase : s.rollout with
  | some suspended =>
      rw [InProgress, phase, busy]
      rfl
  | none =>
      dsimp only
      split_ifs
      · have same := (rolloutOnce_settled
          { s with manager := { s.manager with needNewDistribution := false } } next).2
        exact closeLoop_inProgress ((congrArg Prod.fst same).trans busy)
      · exact closeLoop_inProgress busy

theorem ensureKeyDistribution_inProgress {s : System} (progress : InProgress s)
    (input : LoopInput) : InProgress (s.ensureKeyDistribution input) := by
  unfold System.ensureKeyDistribution
  split_ifs
  · exact progress
  · exact progress
  · have same := (rolloutOnce_settled
      { s with manager := { s.manager with keyDistributionInProgress := true } } input.first).2
    exact followUp_inProgress (congrArg Prod.fst same) input.next

theorem onMembershipsUpdate_inProgress {s : System} (progress : InProgress s)
    (input : LoopInput) : InProgress (s.onMembershipsUpdate input) := by
  unfold System.onMembershipsUpdate
  split_ifs
  · exact progress
  · split
    · exact progress
    · split_ifs
      · split
        · exact ensureKeyDistribution_inProgress progress input
        · exact progress
      · exact ensureKeyDistribution_inProgress progress input

theorem flushDueRotation_inProgress {s : System} (progress : InProgress s) (checkedAt : ℕ)
    (input : LoopInput) : InProgress (s.flushDueRotation checkedAt input) := by
  unfold System.flushDueRotation
  split
  · exact progress
  · split_ifs
    · exact progress
    · exact ensureKeyDistribution_inProgress progress input

theorem InProgress.of_flags {s t : System} (progress : InProgress s)
    (same : flags t.manager = flags s.manager) (rollout : t.rollout = s.rollout) :
    InProgress t := by
  rw [InProgress, rollout]
  exact (congrArg Prod.fst same).trans progress

theorem retryUndeliveredKey_inProgress {s : System} (progress : InProgress s)
    (memberId : String) : InProgress (s.retryUndeliveredKey memberId) := by
  have same := beginRetry_flags s.manager s.roster memberId
  unfold System.retryUndeliveredKey
  cases begins : beginRetry s.manager s.roster memberId with
  | mk m outcome =>
      rw [begins] at same
      cases outcome with
      | ended | sending => exact progress.of_flags same rfl

theorem step_inProgress {s t : System} {a : Action} (progress : InProgress s)
    (h : step s a = some t) : InProgress t := by
  cases a with
  | setRoster roster =>
      cases h
      exact progress
  | onMembershipsUpdate input =>
      simp only [step, Option.ite_none_right_eq_some, Option.some.injEq] at h
      rw [← h.2]
      refine onMembershipsUpdate_inProgress ?_ input
      exact progress
  | eagerSignalled i atMs input =>
      simp only [step] at h
      split at h
      · cases h
      · simp only [Option.ite_none_right_eq_some, Option.some.injEq] at h
        rw [← h.2]
        refine ensureKeyDistribution_inProgress ?_ input
        exact progress.of_flags (recordSignalled_flags _ _ _ _) rfl
  | flushDueRotation checkedAt input =>
      simp only [step, Option.ite_none_right_eq_some, Option.some.injEq] at h
      rw [← h.2]
      refine flushDueRotation_inProgress ?_ checkedAt input
      exact progress
  | rolloutAnswered answer next =>
      simp only [step] at h
      split at h
      · rename_i p sending
        simp only [Option.ite_none_right_eq_some, Option.some.injEq] at h
        rw [← h.2]
        have same := afterSend_flags { s with clock := next.mintedAt } p
          (servedBy p.addressed answer)
        refine followUp_inProgress ((congrArg Prod.fst same).trans ?_) next
        exact progress.trans (by rw [sending]; rfl)
      · cases h
  | rolloutSignalled atMs next =>
      simp only [step] at h
      split at h
      · rename_i p signalling
        simp only [Option.ite_none_right_eq_some, Option.some.injEq] at h
        rw [← h.2]
        have same := recordSignalled_flags s.manager p.key p.useAfterMs atMs
        refine followUp_inProgress ((congrArg Prod.fst same).trans ?_) next
        exact progress.trans (by rw [signalling]; rfl)
      · cases h
  | retryUndeliveredKey memberId =>
      cases h
      exact retryUndeliveredKey_inProgress progress memberId
  | retryAnswered i answer =>
      simp only [step] at h
      split at h
      · cases h
      · rename_i r pending
        cases h
        exact progress.of_flags (finishRetry_flags s.manager r answer) rfl

theorem settled_kept : KeptByRollouts Settled fun _ _ => True :=
  ⟨fun _ _ settled => ⟨settled.addressed, settled.locked⟩, fun _ _ _ _ => trivial,
    fun _ _ => (rolloutOnce_settled _ _).1⟩

theorem followUp_settled {s : System} (settled : Settled s) (next : RolloutInput) :
    Settled (s.followUp next) :=
  settled_kept.followUp settled fun _ _ => trivial

theorem ensureKeyDistribution_settled {s : System} (settled : Settled s) (input : LoopInput) :
    Settled (s.ensureKeyDistribution input) :=
  settled_kept.ensureKeyDistribution settled (fun _ _ => trivial) fun _ _ _ => trivial

theorem onMembershipsUpdate_settled {s : System} (settled : Settled s) (input : LoopInput) :
    Settled (s.onMembershipsUpdate input) := by
  unfold System.onMembershipsUpdate
  split_ifs
  · exact settled
  · split
    · exact settled
    · split_ifs
      · split
        · exact ensureKeyDistribution_settled settled input
        · exact ⟨settled.addressed, settled.locked⟩
      · exact ensureKeyDistribution_settled settled input

theorem dropOwed_settled {s : System} (settled : Settled s) (owed : Undelivered) :
    Settled { s with manager := dropOwed s.manager owed } := by
  unfold dropOwed
  split_ifs
  · exact ⟨settled.addressed, settled.locked⟩
  · exact settled

theorem retryUndeliveredKey_settled {s : System} (settled : Settled s) (memberId : String) :
    Settled (s.retryUndeliveredKey memberId) := by
  unfold System.retryUndeliveredKey beginRetry
  cases s.manager.undelivered memberId with
  | none => exact settled
  | some owed =>
      dsimp only
      cases s.manager.outboundKey.filter fun k => k.keyIndex == owed.keyIndex with
      | none => exact dropOwed_settled settled owed
      | some key =>
          dsimp only
          cases address s.roster owed.target with
          | none => exact settled
          | some addressed => exact ⟨settled.addressed, settled.locked⟩

/-- A retry's delivery is recorded for a participation that the roster of the
latest rollout holds. Nothing is asked while a rotation is in flight, nor of a
delivery that is not recorded, because the key has rotated or the holder is listed
already. -/
def RecordsPresent (s : System) : Action → Prop
  | .retryAnswered i (.ok deliveries) =>
      ∀ r ∈ s.retries[i]?, ∀ key ∈ s.manager.outboundKey,
        rotationInFlight s = false →
        key.keyIndex = r.owed.keyIndex →
        anySameJoin key.sharedWith r.owed.target = false →
        reached deliveries r.addressed.target = true →
          Present s.lastRead r.owed.target.participation
  | _ => True

instance (s : System) : (a : Action) → Decidable (RecordsPresent s a)
  | .retryAnswered i (.ok _) =>
      inferInstanceAs (Decidable (∀ r ∈ s.retries[i]?, ∀ key ∈ s.manager.outboundKey, _))
  | .retryAnswered _ (.error _) => isTrue trivial
  | .setRoster _ | .onMembershipsUpdate _ | .eagerSignalled .. | .flushDueRotation ..
  | .rolloutAnswered .. | .rolloutSignalled .. | .retryUndeliveredKey _ => isTrue trivial

theorem recordRetried_settled {s : System} {owed : Undelivered} (settled : Settled s)
    (present : ∀ key ∈ s.manager.outboundKey, rotationInFlight s = false →
      key.keyIndex = owed.keyIndex → anySameJoin key.sharedWith owed.target = false →
        Present s.lastRead owed.target.participation) :
    Settled { s with manager := recordRetried s.manager owed } := by
  refine ⟨settled.addressed, fun calm key hkey x hx absent => ?_⟩
  obtain ⟨k, hk, rfl⟩ := Option.map_eq_some_iff.mp hkey
  have before := settled.locked calm k hk
  split_ifs at hx ⊢ with push
  · rcases List.mem_append.mp hx with hx | hx
    · exact before x hx absent
    · rw [List.mem_singleton] at hx
      subst hx
      exact absurd (present k hk calm push.1 push.2) absent
  · exact before x hx absent

theorem retryAnswered_settled {s : System} {i : ℕ} {r : PendingRetry} {answer : SendAnswer}
    (settled : Settled s) (hr : s.retries[i]? = some r)
    (ok : RecordsPresent s (.retryAnswered i answer)) :
    Settled { s with
      manager := (finishRetry s.manager r answer).1
      retries := s.retries.eraseIdx i } := by
  cases answer with
  | error e => exact ⟨settled.addressed, settled.locked⟩
  | ok deliveries =>
      by_cases hs : served [r.addressed] deliveries = []
      · simp only [finishRetry, hs, if_true]
        exact ⟨settled.addressed, settled.locked⟩
      · simp only [finishRetry, hs, if_false]
        have pushed : Settled { s with manager := recordRetried s.manager r.owed } :=
          recordRetried_settled settled fun key hk calm idx fresh =>
            ok r hr key hk calm idx fresh (served_singleton hs)
        have dropped := dropOwed_settled pushed r.owed
        exact ⟨dropped.addressed, dropped.locked⟩

theorem Settled.signalled {s : System} (settled : Settled s) {key : OutboundEncryptionKey}
    {useAfter atMs : ℕ} : Settled { s with
      manager := recordSignalled s.manager key useAfter atMs } := by
  unfold recordSignalled
  split_ifs
  · exact ⟨settled.addressed, settled.locked⟩
  · exact settled

theorem step_settled {s t : System} {a : Action} (settled : Settled s) (ok : RecordsPresent s a)
    (h : step s a = some t) : Settled t := by
  cases a with
  | setRoster roster =>
      cases h
      exact ⟨settled.addressed, settled.locked⟩
  | onMembershipsUpdate input =>
      simp only [step, Option.ite_none_right_eq_some, Option.some.injEq] at h
      rw [← h.2]
      refine onMembershipsUpdate_settled ?_ input
      exact ⟨settled.addressed, settled.locked⟩
  | eagerSignalled i atMs input =>
      simp only [step] at h
      split at h
      · cases h
      · rename_i key hkey
        simp only [Option.ite_none_right_eq_some, Option.some.injEq] at h
        rw [← h.2]
        have signalled : Settled { s with manager := recordSignalled s.manager key 0 atMs } :=
          settled.signalled
        refine ensureKeyDistribution_settled ?_ input
        exact ⟨signalled.addressed, signalled.locked⟩
  | flushDueRotation checkedAt input =>
      simp only [step, Option.ite_none_right_eq_some, Option.some.injEq] at h
      rw [← h.2]
      refine settled_kept.flushDueRotation ?_ (fun _ _ _ _ _ => trivial) fun _ _ _ => trivial
      exact ⟨settled.addressed, settled.locked⟩
  | rolloutAnswered answer next =>
      simp only [step] at h
      split at h
      · rename_i p hp
        simp only [Option.ite_none_right_eq_some, Option.some.injEq] at h
        rw [← h.2]
        have present : ∀ t ∈ servedBy p.addressed answer, Present s.lastRead t.participation := by
          intro t ht
          obtain ⟨a, ha, rfl⟩ := mem_servedBy ht
          exact settled.addressed p hp a ha
        have locked : p.rotating = false → Locked s.manager s.lastRead :=
          fun calm => settled.locked (by simp [rotationInFlight, hp, calm])
        exact followUp_settled
          (afterSend_settled (s := { s with clock := next.mintedAt }) present locked).1 next
      · cases h
  | rolloutSignalled atMs next =>
      simp only [step] at h
      split at h
      · rename_i p hp
        simp only [Option.ite_none_right_eq_some, Option.some.injEq] at h
        rw [← h.2]
        have signalled : Settled { s with
            manager := recordSignalled s.manager p.key p.useAfterMs atMs } := settled.signalled
        have locked := signalled.locked (by simp [rotationInFlight, hp])
        refine followUp_settled ⟨?_, fun _ => ?_⟩ next
        · simp
        · exact locked
      · cases h
  | retryUndeliveredKey memberId =>
      cases h
      exact retryUndeliveredKey_settled settled memberId
  | retryAnswered i answer =>
      simp only [step] at h
      split at h
      · cases h
      · rename_i r hr
        cases h
        exact retryAnswered_settled settled hr ok

theorem step_inv {s t : System} {a : Action} (inv : Inv s) (ok : RecordsPresent s a)
    (h : step s a = some t) : Inv t :=
  ⟨step_settled inv.toSettled ok h, step_inProgress inv.progress h⟩

theorem start_inv (setup : Setup) (roster : List JoinedMembership) (key : List UInt8)
    (now : ℕ) : Inv (start setup roster key now) := by
  refine ⟨⟨by simp [start], fun _ k hk x hx => ?_⟩, ?_⟩
  · unfold start EncryptionManager.join at hk
    split_ifs at hk
    · cases hk
      simp at hx
    · simp [EncryptionManager.new] at hk
  · unfold start EncryptionManager.join
    split_ifs <;> rfl

/-- The key being distributed, or the one in place when none is. -/
def System.latestKey (s : System) : Option OutboundEncryptionKey :=
  match s.rollout with
  | some (.sending p) => some p.key
  | _ => s.manager.outboundKey

/-- In `t` a key has been minted under `index`, and what was sent since `before`
carries that key and does not go to the participation `x`. -/
structure MintsWithout (index : UInt8) (before : List KeySend) (t : System)
    (input : RolloutInput) (x : Participation) : Prop where
  minted : t.latestKey = some ⟨input.key, index, input.mintedAt, []⟩
  unsent : ∃ sends, t.sent = before ++ sends ∧ ∀ send ∈ sends,
    send.key = input.key ∧ send.keyIndex = index ∧
      ∀ a ∈ send.addressed, a.target.participation ≠ x ∧ participationOf a.membership ≠ x

theorem afterSend_rotated {s : System} {p : PendingRollout}
    {reachedAll : List ParticipantDeviceInfo} (h : p.rotating = true) :
    (s.afterSend p reachedAll).latestKey = some { p.key with sharedWith := reachedAll } ∧
      (s.afterSend p reachedAll).sent = s.sent := by
  have stored := (finishRollout_rotates s.manager reachedAll h).1
  unfold System.afterSend
  dsimp only
  split
  · exact ⟨stored, rfl⟩
  · exact ⟨stored, rfl⟩

theorem rolloutOnce_mints {s : System} {input : RolloutInput} {current : OutboundEncryptionKey}
    {x : Participation} (hk : s.manager.outboundKey = some current)
    (due : rotating s.manager.config current (s.manager.currentParticipants s.roster)
      input.now = true)
    (gone : ∀ m ∈ s.roster, participationOf m ≠ x) :
    MintsWithout s.manager.nextKeyIndex s.sent (s.rolloutOnce input) input x := by
  have spec := beginRollout_spec s.manager s.roster input
  unfold System.rolloutOnce
  cases hb : beginRollout s.manager s.roster input with
  | mk m pending =>
      rw [hb] at spec
      cases spec with
      | noKey h => exact absurd (h.symm.trans hk) (by simp)
      | nothing h kept nobody =>
          obtain rfl := Option.some.inj (h.symm.trans hk)
          exact absurd (kept.symm.trans due) (by simp)
      | shares h kept waiting =>
          obtain rfl := Option.some.inj (h.symm.trans hk)
          exact absurd (kept.symm.trans due) (by simp)
      | rotates h due hm hp =>
          subst hm hp
          dsimp only [rolloutSend]
          split_ifs with nobody
          · dsimp only
            exact ⟨(afterSend_rotated rfl).1, [], by simpa using (afterSend_rotated rfl).2, by simp⟩
          · refine ⟨rfl, _, rfl, fun send hsend => ?_⟩
            rw [List.mem_singleton] at hsend
            subst hsend
            refine ⟨rfl, rfl, fun a ha => ?_⟩
            obtain ⟨ht, hm, -⟩ := mem_addressAll ha
            obtain ⟨m, hr, same⟩ := EncryptionManager.mem_currentParticipants ht
            exact ⟨fun hx => gone m hr (same.trans hx), gone _ hm⟩

theorem followUp_mints {index : UInt8} {before : List KeySend} {t : System}
    {input next : RolloutInput} {x : Participation} (h : MintsWithout index before t input x)
    (calm : t.manager.needNewDistribution = false) :
    MintsWithout index before (t.followUp next) input x := by
  unfold System.followUp System.closeLoop
  split
  · exact h
  · rename_i idle
    rw [calm]
    have latest : t.latestKey = t.manager.outboundKey := by simp [System.latestKey, idle]
    refine ⟨?_, by simpa [idle] using h.unsent⟩
    rw [← h.minted, latest]
    simp [System.latestKey, idle]

theorem flushDueRotation_due {s : System} {due checkedAt : ℕ} {input : LoopInput}
    (hdue : s.manager.rotationDueAt = some due) (late : due ≤ checkedAt)
    (managed : s.manager.config.manageMediaKeys = true)
    (free : s.manager.keyDistributionInProgress = false) :
    s.flushDueRotation checkedAt input =
      (System.rolloutOnce { s with manager := { s.manager with keyDistributionInProgress := true } }
        input.first).followUp input.next := by
  unfold System.flushDueRotation
  rw [hdue]
  dsimp only
  rw [if_neg (not_lt.mpr late)]
  unfold System.ensureKeyDistribution
  rw [if_neg (by simp [managed]), if_neg (by simp [free])]

/-- Leavers are locked out: after every run whose retries record only deliveries
to participations present, once no rollout runs or is scheduled, a holder of the
key that the roster of the last rollout lacks makes the rotation due at the end of
the key's freshness, and the flush at that instant mints a key not sent to it. -/
theorem leavers_locked_out (setup : Setup) (roster : List JoinedMembership)
    (firstKey : List UInt8) (joinedAt : ℕ) (actions : List Action) (s : System)
    (recorded : Admissible step RecordsPresent (start setup roster firstKey joinedAt) actions)
    (reach : run step (start setup roster firstKey joinedAt) actions = some s)
    (idle : s.rollout = none) (unscheduled : s.manager.needNewDistribution = false)
    (managed : s.manager.config.manageMediaKeys = true)
    (key : OutboundEncryptionKey) (hkey : s.manager.outboundKey = some key)
    (x : ParticipantDeviceInfo) (holder : x ∈ key.sharedWith)
    (absent : ¬ Present s.lastRead x.participation) :
    ∃ due, s.manager.rotationDueAt = some due ∧
      due ≤ key.creationTs + max s.manager.config.keyRotationGracePeriodMs
        s.manager.config.delayBeforeUseMs ∧
      ∀ checkedAt input t, due ≤ checkedAt →
        (∀ m ∈ s.roster, participationOf m ≠ x.participation) →
        step s (.flushDueRotation checkedAt input) = some t →
          MintsWithout s.manager.nextKeyIndex s.sent t input.first x.participation := by
  have inv : Inv s :=
    run_invariant (fun _ _ _ => step_inv) (start_inv setup roster firstKey joinedAt) recorded reach
  have due := inv.locked (by simp [rotationInFlight, idle]) key hkey x holder absent
  refine ⟨_, due, satAdd_le _ _, fun checkedAt input t late gone hstep => ?_⟩
  simp only [step, Option.ite_none_right_eq_some, Option.some.injEq] at hstep
  obtain ⟨⟨-, reads⟩, rfl⟩ := hstep
  have free : s.manager.keyDistributionInProgress = false := by
    rw [inv.progress, idle]
    rfl
  rw [flushDueRotation_due (s := { s with clock := input.next.mintedAt }) due late managed free]
  have left : left key (s.manager.currentParticipants s.roster) ≠ [] := by
    refine List.ne_nil_of_mem (mem_left.mpr ⟨holder, fun p hp same => ?_⟩)
    obtain ⟨m, hm, hmp⟩ := EncryptionManager.mem_currentParticipants hp
    exact gone m hm (hmp.trans same)
  have rotates : rotating s.manager.config key (s.manager.currentParticipants s.roster)
      input.first.now = true := rotating_of_left left (late.trans reads.1.1)
  refine followUp_mints ?_ ((congrArg Prod.snd (rolloutOnce_settled _ _).2).trans unscheduled)
  exact rolloutOnce_mints (s := { s with
    manager := { s.manager with keyDistributionInProgress := true }
    clock := input.next.mintedAt }) hkey rotates gone

section Runs

def inputAt (now : ℕ) : LoopInput := ⟨⟨now, now, [2]⟩, ⟨now, now, [3]⟩⟩

/-- Bob is served, leaves, and the update for his departure runs. -/
def servedThenLeft : List Action :=
  [.onMembershipsUpdate (inputAt 0),
    .rolloutAnswered (.ok [.sent ⟨"@bob:x", "B"⟩]) (inputAt 0).next,
    .setRoster [], .onMembershipsUpdate (inputAt 1000)]

theorem leavers_locked_out_bob :
    ∃ s ∈ run step (start alice [bob] [1] 0) servedThenLeft, ∃ key ∈ s.manager.outboundKey,
      ∃ due, s.manager.rotationDueAt = some due ∧ due ≤ key.creationTs + 10000 := by
  have reached : ∃ s ∈ run step (start alice [bob] [1] 0) servedThenLeft,
      s.rollout = none ∧ s.manager.needNewDistribution = false ∧
        s.manager.config = {} ∧ ∃ key ∈ s.manager.outboundKey,
          ∃ x ∈ key.sharedWith, ¬ Present s.lastRead x.participation := by decide
  obtain ⟨s, reach, idle, unscheduled, config, key, hkey, x, holder, absent⟩ := reached
  obtain ⟨due, hdue, le, -⟩ := leavers_locked_out alice [bob] [1] 0 servedThenLeft s
    (by decide) reach idle unscheduled (by rw [config]) key hkey x holder absent
  exact ⟨s, reach, key, hkey, due, hdue, by rwa [config] at le⟩

/-- Bob's first send fails, the retry is in flight when he leaves, the update for
his departure runs, and only then is the retry answered. -/
def retriedAfterLeaving : List Action :=
  [.onMembershipsUpdate (inputAt 0),
    .rolloutAnswered (.ok [.failed ⟨"@bob:x", "B"⟩ "offline"]) (inputAt 0).next,
    .retryUndeliveredKey "bob", .setRoster [], .onMembershipsUpdate (inputAt 1000),
    .retryAnswered 0 (.ok [.sent ⟨"@bob:x", "B"⟩])]

/-- The retry records a holder the last rollout did not see, and nothing brings the
rotation forward: it stays due at the end of the key's lifetime. -/
theorem retried_leaver_not_locked_out :
    ∃ s ∈ run step (start alice [bob] [1] 0) retriedAfterLeaving,
      s.rollout = none ∧ s.manager.needNewDistribution = false ∧
        s.manager.config.manageMediaKeys = true ∧
        ∃ key ∈ s.manager.outboundKey, ∃ x ∈ key.sharedWith,
          ¬ Present s.lastRead x.participation ∧
          ¬ ∃ due ∈ s.manager.rotationDueAt,
            due ≤ key.creationTs + max s.manager.config.keyRotationGracePeriodMs
              s.manager.config.delayBeforeUseMs := by
  decide

end Runs

end MatrixRtc.DistributionRuns

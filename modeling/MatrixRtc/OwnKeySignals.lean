import MatrixRtc.DistributionRuns
import MatrixRtc.InboundKeys

/-!
# The signals of our own keys

Interleaved distributions with the replay to a handler, and with a history that is no
state of the program: the keys minted in order, each with the rotation that minted it,
which of them is in place, which was recorded as signalled last, and every signal of an
own key with the time the handler was given it. A key is known by its place in the
order, since indices wrap around. An action also says what time it is when it ends,
which is when the handler is given the signal the action ends with, if any.
-/
namespace MatrixRtc.OwnKeySignals
open EncryptionManagers KeyRollout InboundKeys
open DistributionRuns (LoopInput)

/-- A key as it was minted. -/
structure Mint where
  key : OutboundEncryptionKey
  /-- the clock the rotation was decided at -/
  rotatedAt : ℕ
  /-- some member present held the outgoing key -/
  live : Bool

structure Delivery where
  mint : ℕ
  signal : KeyMaterialSignal
  deliveredAt : ℕ

structure System where
  base : DistributionRuns.System
  minted : List Mint
  stored : ℕ
  recorded : Option ℕ
  /-- the keys of the eager signals being taken, in the order of `base.eager` -/
  eagerMints : List ℕ
  deliveries : List Delivery

inductive Action where
  | act (action : DistributionRuns.Action) (endsAt : ℕ)
  | replay (now : ℕ)

namespace System

/-- The place of the key minted last. -/
def newest (h : System) : ℕ := h.minted.length - 1

def outgoingLive (h : System) : Bool :=
  h.base.manager.outboundKey.any fun current =>
    outgoingKeyIsLive current (h.base.manager.currentParticipants h.base.roster)

/-- The key a rollout has minted, if it rotates. -/
def mints (h : System) (p : PendingRollout) : List Mint :=
  if p.rotating then [⟨p.key, p.now, h.outgoingLive⟩] else []

def deliver (h : System) (mint : ℕ) (signal : KeyMaterialSignal) (deliveredAt : ℕ) : System :=
  { h with
    base := { h.base with signals := h.base.signals ++ [signal] }
    deliveries := h.deliveries ++ [⟨mint, signal, deliveredAt⟩] }

/-- The rollout after its send, up to the handler if a new key is signalled. -/
def afterSend (h : System) (p : PendingRollout) (reachedAll : List ParticipantDeviceInfo)
    (endsAt : ℕ) : System :=
  let m := finishRollout h.base.manager p reachedAll
  let h := { h with stored := if p.rotating then h.newest else h.stored }
  match if p.rotating then signalKeyToApp m p.key p.useAfterMs else none with
  | none => { h with base := { h.base with manager := m, rollout := none } }
  | some signal =>
      { h with base := { h.base with manager := m, rollout := some (.signalling p) } }.deliver
        h.stored signal endsAt

/-- One rollout up to where it is suspended. -/
def rolloutOnce (h : System) (input : RolloutInput) (endsAt : ℕ) : System :=
  let lastRead := h.base.manager.currentParticipants h.base.roster
  match beginRollout h.base.manager h.base.roster input with
  | (m, none) =>
      { h with base := { h.base with manager := m, lastRead := lastRead, rollout := none } }
  | (m, some p) =>
      let h :=
        { h with
          base := { h.base with manager := m, lastRead := lastRead }
          minted := h.minted ++ h.mints p }
      match rolloutSend m p with
      | none => h.afterSend p [] endsAt
      | some send =>
          { h with base := { h.base with
            rollout := some (.sending p)
            sent := h.base.sent ++ [send] } }

def closeLoop (h : System) : System := { h with base := h.base.closeLoop }

def followUp (h : System) (next : RolloutInput) (endsAt : ℕ) : System :=
  match h.base.rollout with
  | some _ => h
  | none =>
      if h.base.manager.needNewDistribution then
        closeLoop
          (rolloutOnce
            { h with base := { h.base with
              manager := { h.base.manager with needNewDistribution := false } } } next endsAt)
      else h.closeLoop

def ensureKeyDistribution (h : System) (input : LoopInput) (endsAt : ℕ) : System :=
  if h.base.manager.config.manageMediaKeys = false then h
  else if h.base.manager.keyDistributionInProgress then
    { h with base := { h.base with
      manager := { h.base.manager with needNewDistribution := true } } }
  else
    followUp
      (rolloutOnce
        { h with base := { h.base with
          manager := { h.base.manager with keyDistributionInProgress := true } } }
        input.first endsAt)
      input.next endsAt

/-- The eager signal is of the key in place, at once. -/
def onMembershipsUpdate (h : System) (input : LoopInput) (endsAt : ℕ) : System :=
  if h.base.manager.config.manageMediaKeys = false then h
  else
    match h.base.manager.outboundKey with
    | none => h
    | some key =>
        if h.base.manager.signalledKey.map SignalledKey.keyIndex ≠ some key.keyIndex then
          match signalKeyToApp h.base.manager key 0 with
          | none => h.ensureKeyDistribution input endsAt
          | some signal =>
              { h with
                base := { h.base with eager := h.base.eager ++ [key] }
                eagerMints := h.eagerMints ++ [h.stored] }.deliver h.stored signal endsAt
        else h.ensureKeyDistribution input endsAt

def flushDueRotation (h : System) (checkedAt : ℕ) (input : LoopInput) (endsAt : ℕ) : System :=
  match h.base.manager.rotationDueAt with
  | none => h
  | some dueAt => if checkedAt < dueAt then h else h.ensureKeyDistribution input endsAt

/-- `signalled_key` is written once the handler has returned. -/
def record (h : System) (key : OutboundEncryptionKey) (mint : Option ℕ) (useAfter atMs : ℕ) :
    System :=
  { h with
    base := { h.base with manager := recordSignalled h.base.manager key useAfter atMs }
    recorded := if h.base.manager.signalHandler then mint else h.recorded }

/-- The clock goes on. -/
def tick (h : System) (now : ℕ) : System := { h with base := { h.base with clock := now } }

/-- The own key of `replay_keys_to_handler`, which it signals first. -/
def replay (h : System) (now : ℕ) : System :=
  match (replayKeysToHandler h.base.manager h.base.roster now).1 with
  | none => h
  | some signal => h.deliver h.stored signal now

end System

/-- What an action of the interleaving does, before the time it takes. -/
def act (h : System) (endsAt : ℕ) : DistributionRuns.Action → Option System
  | .setRoster roster => some { h with base := { h.base with roster := roster } }
  | .onMembershipsUpdate input =>
      if input.Reads h.base.clock then
        some ((h.tick input.next.mintedAt).onMembershipsUpdate input endsAt)
      else none
  | .eagerSignalled i atMs input =>
      match h.base.eager[i]? with
      | none => none
      | some key =>
          if h.base.clock ≤ atMs ∧ input.Reads atMs then
            let h := h.record key h.eagerMints[i]? 0 atMs
            let h := { h with
              base := { h.base with eager := h.base.eager.eraseIdx i }
              eagerMints := h.eagerMints.eraseIdx i }
            some ((h.tick input.next.mintedAt).ensureKeyDistribution input endsAt)
          else none
  | .flushDueRotation checkedAt input =>
      if h.base.clock ≤ checkedAt ∧ input.Reads checkedAt then
        some ((h.tick input.next.mintedAt).flushDueRotation checkedAt input endsAt)
      else none
  | .rolloutAnswered answer next =>
      match h.base.rollout with
      | some (.sending p) =>
          if DistributionRuns.RolloutInput.Reads h.base.clock next then
            some (((h.tick next.mintedAt).afterSend p (servedBy p.addressed answer)
              endsAt).followUp next endsAt)
          else none
      | _ => none
  | .rolloutSignalled atMs next =>
      match h.base.rollout with
      | some (.signalling p) =>
          if h.base.clock ≤ atMs ∧ DistributionRuns.RolloutInput.Reads atMs next then
            let h := h.record p.key (some h.stored) p.useAfterMs atMs
            let h := { h with base := { h.base with rollout := none } }
            some ((h.tick next.mintedAt).followUp next endsAt)
          else none
      | _ => none
  | .retryUndeliveredKey memberId =>
      some { h with base := h.base.retryUndeliveredKey memberId }
  | .retryAnswered i answer =>
      match h.base.retries[i]? with
      | none => none
      | some r =>
          some { h with base := { h.base with
            manager := (finishRetry h.base.manager r answer).1
            retries := h.base.retries.eraseIdx i } }

def step (h : System) : Action → Option System
  | .act action endsAt =>
      (act h endsAt action).bind fun t =>
        if t.base.clock ≤ endsAt then some (t.tick endsAt) else none
  | .replay now => if h.base.clock ≤ now then some ((h.replay now).tick now) else none

/-- A session that has just joined, with its first key in place. -/
def start (setup : Setup) (roster : List MemberEvents.JoinedMembership) (key : List UInt8)
    (now : ℕ) : System where
  base := DistributionRuns.start setup roster key now
  minted := if setup.config.manageMediaKeys then [⟨⟨key, 0, now, []⟩, now, false⟩] else []
  stored := 0
  recorded := none
  eagerMints := []
  deliveries := []

theorem afterSend_base (h : System) (p : PendingRollout)
    (reachedAll : List ParticipantDeviceInfo) (endsAt : ℕ) :
    (h.afterSend p reachedAll endsAt).base = h.base.afterSend p reachedAll := by
  unfold System.afterSend DistributionRuns.System.afterSend
  dsimp only
  cases if p.rotating then
      signalKeyToApp (finishRollout h.base.manager p reachedAll) p.key p.useAfterMs
    else none with
  | none => rfl
  | some signal => rfl

theorem rolloutOnce_base (h : System) (input : RolloutInput) (endsAt : ℕ) :
    (h.rolloutOnce input endsAt).base = h.base.rolloutOnce input := by
  unfold System.rolloutOnce DistributionRuns.System.rolloutOnce
  cases beginRollout h.base.manager h.base.roster input with
  | mk m pending =>
      cases pending with
      | none => rfl
      | some p =>
          dsimp only
          cases rolloutSend m p with
          | none => exact afterSend_base _ p [] endsAt
          | some send => rfl

theorem followUp_base (h : System) (next : RolloutInput) (endsAt : ℕ) :
    (h.followUp next endsAt).base = h.base.followUp next := by
  unfold System.followUp DistributionRuns.System.followUp
  cases h.base.rollout with
  | some phase => rfl
  | none =>
      dsimp only
      split_ifs
      · exact congrArg DistributionRuns.System.closeLoop (rolloutOnce_base _ next endsAt)
      · rfl

theorem ensureKeyDistribution_base (h : System) (input : LoopInput) (endsAt : ℕ) :
    (h.ensureKeyDistribution input endsAt).base = h.base.ensureKeyDistribution input := by
  unfold System.ensureKeyDistribution DistributionRuns.System.ensureKeyDistribution
  split_ifs
  · rfl
  · rfl
  · rw [followUp_base, rolloutOnce_base]

theorem onMembershipsUpdate_base (h : System) (input : LoopInput) (endsAt : ℕ) :
    (h.onMembershipsUpdate input endsAt).base = h.base.onMembershipsUpdate input := by
  unfold System.onMembershipsUpdate DistributionRuns.System.onMembershipsUpdate
  split_ifs
  · rfl
  · cases h.base.manager.outboundKey with
    | none => rfl
    | some key =>
        dsimp only
        split_ifs
        · cases signalKeyToApp h.base.manager key 0 with
          | none => exact ensureKeyDistribution_base h input endsAt
          | some signal => rfl
        · exact ensureKeyDistribution_base h input endsAt

theorem flushDueRotation_base (h : System) (checkedAt : ℕ) (input : LoopInput) (endsAt : ℕ) :
    (h.flushDueRotation checkedAt input endsAt).base =
      h.base.flushDueRotation checkedAt input := by
  unfold System.flushDueRotation DistributionRuns.System.flushDueRotation
  cases h.base.manager.rotationDueAt with
  | none => rfl
  | some dueAt =>
      dsimp only
      split_ifs
      · rfl
      · exact ensureKeyDistribution_base h input endsAt

/-- Without its history an action is a step of the interleaved distributions. -/
theorem act_base {h t : System} {endsAt : ℕ} {a : DistributionRuns.Action}
    (step : act h endsAt a = some t) : DistributionRuns.step h.base a = some t.base := by
  cases a with
  | setRoster roster =>
      cases step
      rfl
  | onMembershipsUpdate input =>
      simp only [act, Option.ite_none_right_eq_some, Option.some.injEq] at step
      obtain ⟨reads, rfl⟩ := step
      rw [onMembershipsUpdate_base]
      exact if_pos reads
  | eagerSignalled i atMs input =>
      simp only [act] at step
      split at step
      · cases step
      · rename_i key pending
        simp only [Option.ite_none_right_eq_some, Option.some.injEq] at step
        obtain ⟨reads, rfl⟩ := step
        rw [ensureKeyDistribution_base]
        simp only [DistributionRuns.step, pending]
        exact if_pos reads
  | flushDueRotation checkedAt input =>
      simp only [act, Option.ite_none_right_eq_some, Option.some.injEq] at step
      obtain ⟨reads, rfl⟩ := step
      rw [flushDueRotation_base]
      exact if_pos reads
  | rolloutAnswered answer next =>
      simp only [act] at step
      split at step
      · rename_i p sending
        simp only [Option.ite_none_right_eq_some, Option.some.injEq] at step
        obtain ⟨reads, rfl⟩ := step
        rw [followUp_base, afterSend_base]
        simp only [DistributionRuns.step, sending]
        exact if_pos reads
      · cases step
  | rolloutSignalled atMs next =>
      simp only [act] at step
      split at step
      · rename_i p signalling
        simp only [Option.ite_none_right_eq_some, Option.some.injEq] at step
        obtain ⟨reads, rfl⟩ := step
        rw [followUp_base]
        simp only [DistributionRuns.step, signalling]
        exact if_pos reads
      · cases step
  | retryUndeliveredKey memberId =>
      cases step
      rfl
  | retryAnswered i answer =>
      simp only [act] at step
      split at step
      · cases step
      · rename_i r pending
        cases step
        simp only [DistributionRuns.step, pending]

end MatrixRtc.OwnKeySignals

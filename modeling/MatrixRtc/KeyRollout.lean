import MatrixRtc.EncryptionManagers
import Mathlib.Order.Lattice

/-!
# One rollout, one retry

`rollout_outbound_key` and `retry_undelivered_key` cut at their awaits. The first
part of a rollout reads the roster and the clock, decides whether the key is kept
or replaced, and addresses the recipients; it ends where `send_to_device_message`
is awaited. The second part takes the host's answer and records whom it reached.
A rollout with nobody to address has no await there, which is the second part
with nobody served. The random bytes and the clock readings are inputs.
-/
namespace MatrixRtc.KeyRollout
open HostAnswers MemberEvents EncryptionManagers

/-- What one rollout takes from the environment: the clock at the decision and at
the minting of a new key, and the random bytes of that key. -/
structure RolloutInput where
  now : ℕ
  mintedAt : ℕ
  key : List UInt8
deriving DecidableEq, Repr

/-- The answer of `send_to_device_message`. -/
abbrev SendAnswer := Except CommandError (List ToDeviceDelivery)

/-- A target with the membership its member id was looked up to. -/
structure Addressed where
  target : ParticipantDeviceInfo
  membership : JoinedMembership
  recipient : ToDeviceRecipient
deriving DecidableEq

/-- The first membership under the target's member id, if it names a device. -/
def address (roster : List JoinedMembership) (target : ParticipantDeviceInfo) :
    Option Addressed :=
  (roster.find? fun s => s.memberId == target.memberId).bind fun s =>
    s.origin.senderDeviceId.map fun device => ⟨target, s, s.sender, device⟩

def addressAll (roster : List JoinedMembership) (targets : List ParticipantDeviceInfo) :
    List Addressed :=
  targets.filterMap (address roster)

/-- One call of `send_to_device_message`: the key it carries, when that key was
minted, and whom it is addressed to. -/
structure KeySend where
  roomId : String
  memberId : String
  keyIndex : UInt8
  key : List UInt8
  mintedAt : ℕ
  addressed : List Addressed
deriving DecidableEq

/-- The host reported this target's own user and device as sent. -/
def reached (deliveries : List ToDeviceDelivery) (target : ParticipantDeviceInfo) : Bool :=
  (deliveries.find? fun d =>
    d.recipient.userId == target.userId && d.recipient.deviceId == target.deviceId).any
      ToDeviceDelivery.isSent

/-- The second half of `deliver_key`: outcomes are matched by recipient. -/
def served (addressed : List Addressed) (deliveries : List ToDeviceDelivery) :
    List ParticipantDeviceInfo :=
  (addressed.map Addressed.target).filter (reached deliveries)

/-- `send_key_to_participants`: a batch that never left served nobody. -/
def servedBy (addressed : List Addressed) : SendAnswer → List ParticipantDeviceInfo
  | .ok deliveries => served addressed deliveries
  | .error _ => []

section Decision
variable (config : EncryptionConfig) (key : OutboundEncryptionKey)
variable (participants : List ParticipantDeviceInfo) (now : ℕ)

/-- Participations that hold the key and have ended. -/
def left : List ParticipantDeviceInfo :=
  key.sharedWith.filter fun x => !anySameJoin participants x

/-- Participations present that were not served the key. -/
def joined : List ParticipantDeviceInfo :=
  participants.filter fun x => !anySameJoin key.sharedWith x

/-- Someone present holds the key we would leave behind. -/
def outgoingKeyIsLive : Bool :=
  participants.any (anySameJoin key.sharedWith)

def keyIsFresh : Bool :=
  decide (now - key.creationTs < config.freshnessMs)

/-- When the key must be gone. -/
def expiresAt : ℕ :=
  let atLifetime := satAdd key.creationTs config.lifetimeMs
  if left key participants ≠ [] then
    min atLifetime (satAdd key.creationTs config.freshnessMs)
  else if joined key participants ≠ [] ∧ keyIsFresh config key now = false then now
  else atLifetime

def rotating : Bool :=
  decide (expiresAt config key participants now ≤ now)

def useAfterMs : ℕ :=
  if rotating config key participants now && outgoingKeyIsLive key participants then
    config.delayBeforeUseMs
  else 0

/-- What the rollout leaves in `rotation_due_at`. -/
def dueAfter : ℕ :=
  if rotating config key participants now then satAdd now config.lifetimeMs
  else expiresAt config key participants now

end Decision

/-- A rollout at its send: what it distributes, to whom, and what it still needs. -/
structure PendingRollout where
  rotating : Bool
  key : OutboundEncryptionKey
  targets : List ParticipantDeviceInfo
  addressed : List Addressed
  useAfterMs : ℕ
  keyStillInUse : Option (UInt8 × List UInt8)
  now : ℕ
deriving DecidableEq

/-- A member who left is owed nothing. -/
def retainOwed (undelivered : String → Option Undelivered)
    (participants : List ParticipantDeviceInfo) : String → Option Undelivered :=
  fun id => (undelivered id).filter fun owed => anySameJoin participants owed.target

/-- `create_new_outbound_key`; the index wraps at 256. -/
def createNewOutboundKey (m : EncryptionManager) (input : RolloutInput) :
    EncryptionManager × OutboundEncryptionKey :=
  ({ m with nextKeyIndex := m.nextKeyIndex + 1 },
    ⟨input.key, m.nextKeyIndex, input.mintedAt, []⟩)

/-- The bookkeeping of a rollout before anything is distributed. -/
def settleRoster (m : EncryptionManager) (participants : List ParticipantDeviceInfo) :
    EncryptionManager :=
  { m with undelivered := retainOwed m.undelivered participants }

@[simp] theorem settleRoster_outboundKey (m : EncryptionManager)
    (participants : List ParticipantDeviceInfo) :
    (settleRoster m participants).outboundKey = m.outboundKey := rfl

def setRotationDueAt (m : EncryptionManager) (due : Option ℕ) : EncryptionManager :=
  { m with rotationDueAt := due }

/-- The rollout once the key in place is known: the due instant is set, and either
there is nothing to rotate to and nobody waiting, or a key is distributed. -/
def decideRollout (m : EncryptionManager) (roster : List JoinedMembership)
    (participants : List ParticipantDeviceInfo) (current : OutboundEncryptionKey)
    (input : RolloutInput) : EncryptionManager × Option PendingRollout :=
  let rotates := rotating m.config current participants input.now
  let m := setRotationDueAt m (some (dueAfter m.config current participants input.now))
  let useAfter := useAfterMs m.config current participants input.now
  let stillInUse := if rotates ∧ useAfter = 0 then none else m.keyInUse input.now
  let waiting := joined current participants
  if rotates then
    let (m, fresh) := createNewOutboundKey m input
    (m, some ⟨true, fresh, participants, addressAll roster participants, useAfter,
      stillInUse, input.now⟩)
  else if waiting = [] then (m, none)
  else
    (m, some ⟨false, current, waiting, addressAll roster waiting, useAfter,
      stillInUse, input.now⟩)

/-- The rollout up to its send; without an outbound key there is nothing to do. -/
def beginRollout (m : EncryptionManager) (roster : List JoinedMembership)
    (input : RolloutInput) : EncryptionManager × Option PendingRollout :=
  let participants := m.currentParticipants roster
  let m := settleRoster m participants
  match m.outboundKey with
  | none => (m, none)
  | some current => decideRollout m roster participants current input

/-- Whoever the rollout missed is owed the key; a served member is owed nothing. -/
def recordOwed (undelivered : String → Option Undelivered) (keyIndex : UInt8)
    (reachedAll : List ParticipantDeviceInfo) :
    List ParticipantDeviceInfo → String → Option Undelivered
  | [] => undelivered
  | p :: rest =>
      recordOwed
        (Function.update undelivered p.memberId
          (if anySameJoin reachedAll p then none else some ⟨p, keyIndex⟩))
        keyIndex reachedAll rest

/-- Each recipient is added once per join. -/
def addHolders (holders : List ParticipantDeviceInfo) :
    List ParticipantDeviceInfo → List ParticipantDeviceInfo
  | [] => holders
  | p :: rest => addHolders (if anySameJoin holders p then holders else holders ++ [p]) rest

/-- What stays on the wire for the length of the delay, and until when. -/
def supersededBy (p : PendingRollout) : Option SupersededKey :=
  match p.useAfterMs, p.keyStillInUse with
  | 0, _ | _, none => none
  | delay, some (index, key) => some ⟨key, index, satAdd p.now delay⟩

/-- The rollout after its send: a rotation stores the new key with the recipients
it reached, a re-share adds them to the key in place. -/
def finishRollout (m : EncryptionManager) (p : PendingRollout)
    (reachedAll : List ParticipantDeviceInfo) : EncryptionManager :=
  let owed := if p.rotating then fun _ => none else m.undelivered
  let m := { m with undelivered := recordOwed owed p.key.keyIndex reachedAll p.targets }
  if p.rotating then
    { m with
      outboundKey := some { p.key with sharedWith := reachedAll }
      supersededKey := supersededBy p }
  else
    { m with
      outboundKey := m.outboundKey.map fun k =>
        { k with sharedWith := addHolders k.sharedWith reachedAll } }

/-- The signal of our own key, if a handler is installed. -/
def signalKeyToApp (m : EncryptionManager) (key : OutboundEncryptionKey) (useAfter : ℕ) :
    Option KeyMaterialSignal :=
  if m.signalHandler then some ⟨key.key, key.keyIndex, m.ownRtcIdentity, useAfter⟩ else none

/-- After the handler returned, what was signalled is remembered. -/
def recordSignalled (m : EncryptionManager) (key : OutboundEncryptionKey)
    (useAfter atMs : ℕ) : EncryptionManager :=
  if m.signalHandler then { m with signalledKey := some ⟨key.keyIndex, atMs, useAfter⟩ } else m

/-- The call of `send_to_device_message` a rollout makes, if it addresses anyone. -/
def rolloutSend (m : EncryptionManager) (p : PendingRollout) : Option KeySend :=
  if p.addressed = [] then none
  else some ⟨m.roomId, m.ownMemberId, p.key.keyIndex, p.key.key, p.key.creationTs, p.addressed⟩

inductive KeyRetry where
  | delivered
  | moot
  | undelivered
deriving DecidableEq, Repr

/-- Removes `owed`, unless a newer rollout has replaced it meanwhile. -/
def dropOwed (m : EncryptionManager) (owed : Undelivered) : EncryptionManager :=
  if m.undelivered owed.target.memberId = some owed then
    { m with undelivered := Function.update m.undelivered owed.target.memberId none }
  else m

/-- A retry at its send. -/
structure PendingRetry where
  owed : Undelivered
  key : OutboundEncryptionKey
  addressed : Addressed
deriving DecidableEq

/-- A retry either ends at once or is at its send. -/
inductive RetryStart where
  | ended (result : KeyRetry)
  | sending (retry : PendingRetry)
deriving DecidableEq

/-- The retry up to its send: moot when nothing is owed or the key has rotated,
undelivered when the member id addresses no device. -/
def beginRetry (m : EncryptionManager) (roster : List JoinedMembership) (memberId : String) :
    EncryptionManager × RetryStart :=
  match m.undelivered memberId with
  | none => (m, .ended .moot)
  | some owed =>
      match m.outboundKey.filter fun k => k.keyIndex == owed.keyIndex with
      | none => (dropOwed m owed, .ended .moot)
      | some key =>
          match address roster owed.target with
          | none => (m, .ended .undelivered)
          | some addressed => (m, .sending ⟨owed, key, addressed⟩)

/-- A delivered retry is recorded with the key it delivered, once per join. -/
def recordRetried (m : EncryptionManager) (owed : Undelivered) : EncryptionManager :=
  { m with
    outboundKey := m.outboundKey.map fun k =>
      if k.keyIndex = owed.keyIndex ∧ anySameJoin k.sharedWith owed.target = false then
        { k with sharedWith := k.sharedWith ++ [owed.target] }
      else k }

/-- The retry after its send. A failed batch is the host's error. -/
def finishRetry (m : EncryptionManager) (r : PendingRetry) (answer : SendAnswer) :
    EncryptionManager × Except CommandError KeyRetry :=
  match answer with
  | .error e => (m, .error e)
  | .ok deliveries =>
      if served [r.addressed] deliveries = [] then (m, .ok .undelivered)
      else (dropOwed (recordRetried m r.owed) r.owed, .ok .delivered)

def retrySend (m : EncryptionManager) (r : PendingRetry) : KeySend :=
  ⟨m.roomId, m.ownMemberId, r.owed.keyIndex, r.key.key, r.key.creationTs, [r.addressed]⟩

theorem mem_addressAll {roster : List JoinedMembership} {targets : List ParticipantDeviceInfo}
    {a : Addressed} (h : a ∈ addressAll roster targets) :
    a.target ∈ targets ∧ a.membership ∈ roster ∧ a.membership.memberId = a.target.memberId := by
  obtain ⟨t, ht, ha⟩ := List.mem_filterMap.mp h
  unfold address at ha
  obtain ⟨s, hs, hd⟩ := Option.bind_eq_some_iff.mp ha
  obtain ⟨device, -, rfl⟩ := Option.map_eq_some_iff.mp hd
  have hid : s.memberId = t.memberId := by simpa using List.find?_some hs
  exact ⟨ht, List.mem_of_find?_eq_some hs, hid⟩

theorem mem_servedBy {addressed : List Addressed} {answer : SendAnswer}
    {t : ParticipantDeviceInfo} (h : t ∈ servedBy addressed answer) :
    ∃ a ∈ addressed, a.target = t := by
  cases answer with
  | error e => simp [servedBy] at h
  | ok deliveries =>
      simp only [servedBy, served, List.mem_filter, List.mem_map] at h
      exact h.1

theorem mem_addHolders {holders more : List ParticipantDeviceInfo} {x : ParticipantDeviceInfo}
    (h : x ∈ addHolders holders more) : x ∈ holders ∨ x ∈ more := by
  induction more generalizing holders with
  | nil => exact Or.inl h
  | cons p more ih =>
      rcases ih h with hx | hx
      · split_ifs at hx
        · exact Or.inl hx
        · rcases List.mem_append.mp hx with hx | hx
          · exact Or.inl hx
          · exact Or.inr (List.mem_cons.mpr (Or.inl (List.mem_singleton.mp hx)))
      · exact Or.inr (List.mem_cons_of_mem _ hx)

theorem served_singleton {a : Addressed} {deliveries : List ToDeviceDelivery}
    (h : served [a] deliveries ≠ []) : reached deliveries a.target = true := by
  by_contra hr
  exact h (by simp [served, hr])

theorem finishRollout_rotates (m : EncryptionManager) {p : PendingRollout}
    (reachedAll : List ParticipantDeviceInfo) (h : p.rotating = true) :
    (finishRollout m p reachedAll).outboundKey = some { p.key with sharedWith := reachedAll } ∧
      (finishRollout m p reachedAll).undelivered =
        recordOwed (fun _ => none) p.key.keyIndex reachedAll p.targets := by
  simp only [finishRollout, h, if_true, and_self]

theorem finishRollout_shares {m : EncryptionManager} {p : PendingRollout}
    {current : OutboundEncryptionKey} (reachedAll : List ParticipantDeviceInfo)
    (h : p.rotating = false) (hk : m.outboundKey = some current) :
    (finishRollout m p reachedAll).outboundKey =
        some { current with sharedWith := addHolders current.sharedWith reachedAll } ∧
      (finishRollout m p reachedAll).undelivered =
        recordOwed m.undelivered p.key.keyIndex reachedAll p.targets := by
  simp only [finishRollout, h, hk, Bool.false_eq_true, if_false, Option.map_some, and_self]

section DecisionFacts
variable {config : EncryptionConfig} {key : OutboundEncryptionKey}
variable {participants : List ParticipantDeviceInfo} {now : ℕ}

theorem mem_left {x : ParticipantDeviceInfo} :
    x ∈ left key participants ↔
      x ∈ key.sharedWith ∧ ∀ p ∈ participants, p.participation ≠ x.participation := by
  simp [left, anySameJoin_eq_false]

theorem mem_joined {x : ParticipantDeviceInfo} :
    x ∈ joined key participants ↔
      x ∈ participants ∧ ∀ h ∈ key.sharedWith, h.participation ≠ x.participation := by
  simp [joined, anySameJoin_eq_false]

theorem expiresAt_of_left (h : left key participants ≠ []) :
    expiresAt config key participants now = satAdd key.creationTs config.freshnessMs := by
  unfold expiresAt
  rw [if_pos h]
  exact min_eq_right (satAdd_mono config.freshnessMs_le_lifetimeMs)

theorem rotating_of_left (h : left key participants ≠ [])
    (due : satAdd key.creationTs config.freshnessMs ≤ now) :
    rotating config key participants now = true := by
  simpa [rotating, expiresAt_of_left h] using due

theorem fresh_of_shared (kept : rotating config key participants now = false)
    (waiting : joined key participants ≠ []) : now < key.creationTs + config.freshnessMs := by
  have late : now < expiresAt config key participants now := by simpa [rotating] using kept
  by_cases hl : left key participants = []
  · by_cases hf : keyIsFresh config key now = true
    · have young : now - key.creationTs < config.freshnessMs := by simpa [keyIsFresh] using hf
      omega
    · simp [expiresAt, hl, waiting, hf] at late
  · rw [expiresAt_of_left hl] at late
    exact lt_of_lt_of_le late (satAdd_le _ _)

end DecisionFacts

/-- Everything the first part of a rollout can do, once the roster is settled. -/
inductive Begins (m : EncryptionManager) (roster : List JoinedMembership)
    (participants : List ParticipantDeviceInfo) (input : RolloutInput)
    (m' : EncryptionManager) (pending : Option PendingRollout) : Prop
  | noKey (h : m.outboundKey = none) (hm : m' = m) (hp : pending = none)
  | nothing {current : OutboundEncryptionKey} (h : m.outboundKey = some current)
      (kept : rotating m.config current participants input.now = false)
      (nobody : joined current participants = [])
      (hm : m' = setRotationDueAt m (some (expiresAt m.config current participants input.now)))
      (hp : pending = none)
  | rotates {current : OutboundEncryptionKey} (h : m.outboundKey = some current)
      (due : rotating m.config current participants input.now = true)
      {useAfter : ℕ} {stillInUse : Option (UInt8 × List UInt8)}
      (hm : m' = { setRotationDueAt m (some (satAdd input.now m.config.lifetimeMs)) with
        nextKeyIndex := m.nextKeyIndex + 1 })
      (hp : pending = some ⟨true, ⟨input.key, m.nextKeyIndex, input.mintedAt, []⟩, participants,
        addressAll roster participants, useAfter, stillInUse, input.now⟩)
  | shares {current : OutboundEncryptionKey} (h : m.outboundKey = some current)
      (kept : rotating m.config current participants input.now = false)
      (waiting : joined current participants ≠ [])
      {useAfter : ℕ} {stillInUse : Option (UInt8 × List UInt8)}
      (hm : m' = setRotationDueAt m (some (expiresAt m.config current participants input.now)))
      (hp : pending = some ⟨false, current, joined current participants,
        addressAll roster (joined current participants), useAfter, stillInUse, input.now⟩)

theorem decideRollout_spec (m : EncryptionManager) (roster : List JoinedMembership)
    (participants : List ParticipantDeviceInfo) {current : OutboundEncryptionKey}
    (input : RolloutInput) (h : m.outboundKey = some current) :
    Begins m roster participants input
      (decideRollout m roster participants current input).1
      (decideRollout m roster participants current input).2 := by
  unfold decideRollout
  by_cases hr : rotating m.config current participants input.now = true
  · simp only [hr, dueAfter, if_true]
    exact .rotates h hr rfl rfl
  · rw [Bool.not_eq_true] at hr
    by_cases hj : joined current participants = []
    · simp only [hr, hj, dueAfter, Bool.false_eq_true, if_false, if_true]
      exact .nothing h hr hj rfl rfl
    · simp only [hr, hj, dueAfter, Bool.false_eq_true, if_false]
      exact .shares h hr hj rfl rfl

theorem beginRollout_spec (m : EncryptionManager) (roster : List JoinedMembership)
    (input : RolloutInput) :
    Begins (settleRoster m (m.currentParticipants roster)) roster
      (m.currentParticipants roster) input
      (beginRollout m roster input).1 (beginRollout m roster input).2 := by
  unfold beginRollout
  cases hk : m.outboundKey with
  | none =>
      simp only [settleRoster_outboundKey, hk]
      exact .noKey hk rfl rfl
  | some current =>
      simp only [settleRoster_outboundKey, hk]
      exact decideRollout_spec _ roster _ input hk

/-- The first part of a rollout keeps the setup, the key in place and the two flags of
`ensure_key_distribution`. -/
theorem beginRollout_frame (m : EncryptionManager) (roster : List JoinedMembership)
    (input : RolloutInput) :
    (beginRollout m roster input).1.setup = m.setup ∧
      (beginRollout m roster input).1.outboundKey = m.outboundKey ∧
      (beginRollout m roster input).1.keyDistributionInProgress = m.keyDistributionInProgress ∧
      (beginRollout m roster input).1.needNewDistribution = m.needNewDistribution := by
  cases beginRollout_spec m roster input with
  | noKey _ hm _ | nothing _ _ _ hm _ | rotates _ _ hm _ | shares _ _ _ hm _ =>
      rw [hm]
      exact ⟨rfl, rfl, rfl, rfl⟩

theorem beginRollout_setup (m : EncryptionManager) (roster : List JoinedMembership)
    (input : RolloutInput) : (beginRollout m roster input).1.setup = m.setup :=
  (beginRollout_frame m roster input).1

theorem beginRollout_outboundKey (m : EncryptionManager) (roster : List JoinedMembership)
    (input : RolloutInput) : (beginRollout m roster input).1.outboundKey = m.outboundKey :=
  (beginRollout_frame m roster input).2.1

@[simp] theorem recordSignalled_setup (m : EncryptionManager)
    (key : OutboundEncryptionKey) (useAfter atMs : ℕ) :
    (recordSignalled m key useAfter atMs).setup = m.setup := by
  unfold recordSignalled
  split_ifs <;> rfl

@[simp] theorem recordSignalled_outboundKey (m : EncryptionManager)
    (key : OutboundEncryptionKey) (useAfter atMs : ℕ) :
    (recordSignalled m key useAfter atMs).outboundKey = m.outboundKey := by
  unfold recordSignalled
  split_ifs <;> rfl

@[simp] theorem recordSignalled_undelivered (m : EncryptionManager)
    (key : OutboundEncryptionKey) (useAfter atMs : ℕ) :
    (recordSignalled m key useAfter atMs).undelivered = m.undelivered := by
  unfold recordSignalled
  split_ifs <;> rfl

@[simp] theorem finishRollout_setup (m : EncryptionManager) (p : PendingRollout)
    (reachedAll : List ParticipantDeviceInfo) :
    (finishRollout m p reachedAll).setup = m.setup := by
  unfold finishRollout
  split_ifs <;> rfl

@[simp] theorem dropOwed_outboundKey (m : EncryptionManager) (owed : Undelivered) :
    (dropOwed m owed).outboundKey = m.outboundKey := by
  unfold dropOwed
  split_ifs <;> rfl

@[simp] theorem dropOwed_setup (m : EncryptionManager) (owed : Undelivered) :
    (dropOwed m owed).setup = m.setup := by
  unfold dropOwed
  split_ifs <;> rfl

/-- Bob's membership in the concrete runs, stating when his join began. -/
def bob : JoinedMembership :=
  { callMembership "@bob:x" "B" "bob" "bob" with membershipTs := some 1 }

end MatrixRtc.KeyRollout

import MatrixRtc.HostAnswers
import MatrixRtc.MemberEvents
import Mathlib.Logic.Function.Basic

/-!
# The encryption manager's state

The fields of `EncryptionManager` and the operations that only set them up or
clear them. A participation is one join: the member id together with the time the
join began, where the dialect states it. Maps keyed by a string are kept by their
lookup functions, except the inbound keys, which are iterated. Log lines and the
slot id, which only they use, are left out; the clock is not a field but the
readings an operation is given.
-/
namespace MatrixRtc.EncryptionManagers
open HostAnswers MemberEvents

/-- One join of one member, as the key bookkeeping tells joins apart. -/
structure Participation where
  memberId : String
  membershipTs : Option ℕ
deriving DecidableEq, Repr

structure ParticipantDeviceInfo where
  userId : String
  deviceId : String
  memberId : String
  membershipTs : Option ℕ
deriving DecidableEq, Repr

namespace ParticipantDeviceInfo

def participation (p : ParticipantDeviceInfo) : Participation :=
  ⟨p.memberId, p.membershipTs⟩

/-- The same join, not merely the same member id. -/
def sameJoin (p q : ParticipantDeviceInfo) : Bool :=
  p.memberId == q.memberId && p.membershipTs == q.membershipTs

theorem sameJoin_iff {p q : ParticipantDeviceInfo} :
    p.sameJoin q = true ↔ p.participation = q.participation := by
  simp [sameJoin, participation]

end ParticipantDeviceInfo

def participationOf (m : JoinedMembership) : Participation :=
  ⟨m.memberId, m.membershipTs⟩

/-- `ps.iter().any(|p| p.same_join(x))`. -/
def anySameJoin (ps : List ParticipantDeviceInfo) (x : ParticipantDeviceInfo) : Bool :=
  ps.any fun p => p.sameJoin x

theorem anySameJoin_iff {ps : List ParticipantDeviceInfo} {x : ParticipantDeviceInfo} :
    anySameJoin ps x = true ↔ ∃ p ∈ ps, p.participation = x.participation := by
  simp [anySameJoin, ParticipantDeviceInfo.sameJoin_iff]

theorem anySameJoin_eq_false {ps : List ParticipantDeviceInfo} {x : ParticipantDeviceInfo} :
    anySameJoin ps x = false ↔ ∀ p ∈ ps, p.participation ≠ x.participation := by
  rw [← Bool.not_eq_true, anySameJoin_iff]
  push Not
  rfl

structure EncryptionConfig where
  delayBeforeUseMs : ℕ := 5000
  keyRotationGracePeriodMs : ℕ := 10000
  maxKeyLifetimeMs : ℕ := 90 * 60 * 1000
  manageMediaKeys : Bool := true
  requireConfirmedSender : Bool := true
deriving DecidableEq, Repr

/-- How long a key counts as fresh; the delay before use is a floor. -/
def EncryptionConfig.freshnessMs (c : EncryptionConfig) : ℕ :=
  max c.keyRotationGracePeriodMs c.delayBeforeUseMs

def EncryptionConfig.lifetimeMs (c : EncryptionConfig) : ℕ :=
  max c.maxKeyLifetimeMs c.freshnessMs

theorem EncryptionConfig.freshnessMs_le_lifetimeMs (c : EncryptionConfig) :
    c.freshnessMs ≤ c.lifetimeMs :=
  Nat.le_max_right _ _

structure OutboundEncryptionKey where
  key : List UInt8
  keyIndex : UInt8
  creationTs : ℕ
  sharedWith : List ParticipantDeviceInfo
deriving DecidableEq, Repr

structure InboundEncryptionKey where
  key : List UInt8
  keyIndex : UInt8
  memberId : String
  creationTs : ℕ
deriving DecidableEq, Repr

/-- The Olm decryption metadata of a to-device message. -/
inductive KeyOrigin where
  | encrypted (senderUserId : String) (senderDeviceId : Option String)
      (senderIsConfirmed : Bool)
  | cleartext
deriving DecidableEq, Repr

structure PendingInboundKey where
  key : InboundEncryptionKey
  origin : KeyOrigin
deriving DecidableEq, Repr

/-- A key a rollout could not hand to one member. -/
structure Undelivered where
  target : ParticipantDeviceInfo
  keyIndex : UInt8
deriving DecidableEq, Repr

/-- A replaced key that is still what we encrypt with. -/
structure SupersededKey where
  key : List UInt8
  keyIndex : UInt8
  inUseUntilMs : ℕ
deriving DecidableEq, Repr

structure SignalledKey where
  keyIndex : UInt8
  atMs : ℕ
  useAfterMs : ℕ
deriving DecidableEq, Repr

structure KeyMaterialSignal where
  key : List UInt8
  keyIndex : UInt8
  rtcBackendIdentity : String
  useAfterMs : ℕ
deriving DecidableEq, Repr

/-- The latest receive time per `member_id:index`. -/
structure OutdatedKeyFilter where
  buffer : String → Option ℕ := fun _ => none
  bufferTtlMs : ℕ := 5000

structure EncryptionManager where
  ownUserId : String
  ownMemberId : String
  ownDeviceId : String
  roomId : String
  config : EncryptionConfig := {}
  /-- whether a signal handler is installed -/
  signalHandler : Bool := false
  identityMapper : Option (IdentitySubject → Option String) := none
  ownTransports : List RtcTransport := []
  outboundKey : Option OutboundEncryptionKey := none
  inboundKeys : List (String × List InboundEncryptionKey) := []
  keyDistributionInProgress : Bool := false
  needNewDistribution : Bool := false
  nextKeyIndex : UInt8 := 0
  keyBuffer : OutdatedKeyFilter := {}
  keysWithoutMembership : List PendingInboundKey := []
  supersededKey : Option SupersededKey := none
  rotationDueAt : Option ℕ := none
  signalledKey : Option SignalledKey := none
  undelivered : String → Option Undelivered := fun _ => none

/-- What a manager is given before it joins. -/
structure Setup where
  ownUserId : String
  ownDeviceId : String
  ownMemberId : String
  roomId : String
  config : EncryptionConfig := {}
  signalHandler : Bool := false
  identityMapper : Option (IdentitySubject → Option String) := none
  ownTransports : List RtcTransport := []

namespace EncryptionManager

/-- A new manager, configured; every other field is as `new` leaves it. -/
def new (setup : Setup) : EncryptionManager :=
  { ownUserId := setup.ownUserId
    ownMemberId := setup.ownMemberId
    ownDeviceId := setup.ownDeviceId
    roomId := setup.roomId
    config := setup.config
    signalHandler := setup.signalHandler
    identityMapper := setup.identityMapper
    ownTransports := setup.ownTransports }

/-- Creates the first key; it is signalled by the first membership update. -/
def join (m : EncryptionManager) (key : List UInt8) (now : ℕ) : EncryptionManager :=
  if m.config.manageMediaKeys then
    { m with outboundKey := some ⟨key, 0, now, []⟩, nextKeyIndex := 1 }
  else m

def leave (m : EncryptionManager) : EncryptionManager :=
  { m with
    outboundKey := none
    inboundKeys := []
    nextKeyIndex := 0
    signalledKey := none
    supersededKey := none
    rotationDueAt := none
    undelivered := fun _ => none
    keyBuffer := { m.keyBuffer with buffer := fun _ => none }
    keysWithoutMembership := [] }

/-- The participants of a roster: every membership that is neither this join nor
sent by this device. -/
def currentParticipants (m : EncryptionManager) (roster : List JoinedMembership) :
    List ParticipantDeviceInfo :=
  (roster.filter fun s =>
    let isThisJoin := s.memberId == m.ownMemberId
    let isThisDevice := s.sender == m.ownUserId && s.origin.senderDeviceId == some m.ownDeviceId
    !isThisJoin && !isThisDevice).map fun s =>
      ⟨s.sender, s.origin.senderDeviceId.getD "", s.memberId, s.membershipTs⟩

/-- The part of a manager that no operation changes. -/
def setup (m : EncryptionManager) : Setup :=
  { ownUserId := m.ownUserId
    ownDeviceId := m.ownDeviceId
    ownMemberId := m.ownMemberId
    roomId := m.roomId
    config := m.config
    signalHandler := m.signalHandler
    identityMapper := m.identityMapper
    ownTransports := m.ownTransports }

theorem config_of_setup {m n : EncryptionManager} (h : m.setup = n.setup) :
    m.config = n.config :=
  congrArg Setup.config h

theorem currentParticipants_of_setup {m n : EncryptionManager} (h : m.setup = n.setup)
    (roster : List JoinedMembership) :
    m.currentParticipants roster = n.currentParticipants roster := by
  have user := congrArg Setup.ownUserId h
  have device := congrArg Setup.ownDeviceId h
  have member := congrArg Setup.ownMemberId h
  simp only [setup] at user device member
  simp only [currentParticipants, user, device, member]

theorem mem_currentParticipants {m : EncryptionManager} {roster : List JoinedMembership}
    {p : ParticipantDeviceInfo} (h : p ∈ m.currentParticipants roster) :
    ∃ s ∈ roster, participationOf s = p.participation := by
  simp only [currentParticipants, List.mem_map, List.mem_filter] at h
  obtain ⟨s, ⟨hs, -⟩, rfl⟩ := h
  exact ⟨s, hs, rfl⟩

def ownRtcBackendIdentity (m : EncryptionManager) : String :=
  m.ownUserId ++ ":" ++ m.ownDeviceId

/-- Our identity: the mapper's, else `user_id:device_id`. -/
def ownRtcIdentity (m : EncryptionManager) : String :=
  (m.identityMapper.bind fun mapper =>
    mapper ⟨m.ownUserId, some m.ownDeviceId, m.ownMemberId, m.ownTransports⟩).getD
      m.ownRtcBackendIdentity

/-- A peer's identity: the mapper's, else the member id. -/
def peerRtcIdentity (m : EncryptionManager) (s : JoinedMembership) : Option String :=
  match m.identityMapper with
  | some mapper => mapper ⟨s.sender, s.origin.senderDeviceId, s.memberId, s.transports⟩
  | none => some s.memberId

/-- The key we encrypt with at `now`, and its index. -/
def keyInUse (m : EncryptionManager) (now : ℕ) : Option (UInt8 × List UInt8) :=
  match m.supersededKey with
  | some old =>
      if now < old.inUseUntilMs then some (old.keyIndex, old.key)
      else m.outboundKey.map fun k => (k.keyIndex, k.key)
  | none => m.outboundKey.map fun k => (k.keyIndex, k.key)

end EncryptionManager

/-- Our own side in the concrete runs, with the default configuration. -/
def alice : Setup :=
  { ownUserId := "@alice:x", ownDeviceId := "A", ownMemberId := "alice", roomId := "!room:x" }

/-- A membership of the concrete runs, encrypted by the device it names. -/
def callMembership (sender device memberId stickyKey : String) : JoinedMembership :=
  { roomId := "!room:x", slotId := "m.call#ROOM", sender := sender
    origin := .encrypted (some device), stickyKey := stickyKey, memberId := memberId
    membershipEventId := none, membershipTs := none, originServerTs := none
    application := ⟨some "m.call", []⟩, transports := [], canSubscribe := [] }

end MatrixRtc.EncryptionManagers

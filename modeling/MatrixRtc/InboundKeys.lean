import MatrixRtc.EncryptionManagers

/-!
# Keys received from peers

`receive_key`, the buffer for keys whose member event is not known yet, and the
replay to a handler attached later. A key is checked against the member event its
member id is looked up to, once, and is stored under that member id. What the
operations hand to the handler is returned as a list; a stored key is listed there
too, together with the origin it was checked with, which the program itself does
not keep. The base64 decoder is a parameter.
-/
namespace MatrixRtc.InboundKeys
open HostAnswers MemberEvents EncryptionManagers

inductive KeyRejection where
  | cleartext
  | senderNotConfirmed
  | roomMismatch (claimed : String)
  | senderMismatch (expected actual : String)
  | unverifiableDevice
  | deviceMismatch (expected : String) (actual : Option String)
deriving DecidableEq, Repr

structure ReceivedEncryptionKey where
  origin : KeyOrigin
  roomId : String
  memberId : String
  keyB64 : String
  keyIndex : UInt8
deriving DecidableEq, Repr

structure DiscardedKey where
  memberId : String
  keyIndex : Option UInt8
  senderUserId : Option String
  senderDeviceId : Option String
  reason : KeyRejection
deriving DecidableEq, Repr

def DiscardedKey.new (memberId : String) (keyIndex : Option UInt8) (origin : KeyOrigin)
    (reason : KeyRejection) : DiscardedKey :=
  match origin with
  | .encrypted user device _ => ⟨memberId, keyIndex, some user, device, reason⟩
  | .cleartext => ⟨memberId, keyIndex, none, none, reason⟩

/-- What an operation hands out, and the keys it stores. -/
inductive Emission where
  | newKeyMaterial (membership : JoinedMembership) (signal : KeyMaterialSignal)
  | discarded (key : DiscardedKey)
  | stored (key : InboundEncryptionKey) (origin : KeyOrigin)
deriving DecidableEq

/-- What became of a message that could be read. -/
inductive Receipt where
  | rejected (reason : KeyRejection)
  | buffered
  | outdated
  | accepted
deriving DecidableEq, Repr

/-- The device a member event binds its keys to, or that nothing is to be checked. -/
def expectedDevice : EventOrigin → Except KeyRejection (Option String)
  | .encrypted (some device) => .ok (some device)
  | .claimed device => .ok (some device)
  | .unknown => .ok none
  | .encrypted none | .cleartext => .error .unverifiableDevice

def verifyAgainstMembership (origin : KeyOrigin) (s : JoinedMembership) :
    Except KeyRejection Unit :=
  match origin with
  | .cleartext => .error .cleartext
  | .encrypted user device _ =>
      if user ≠ s.sender then .error (.senderMismatch s.sender user)
      else
        match expectedDevice s.origin with
        | .error e => .error e
        | .ok none => .ok ()
        | .ok (some expected) =>
            if device ≠ some expected then .error (.deviceMismatch expected device) else .ok ()

/-- The checks that do not depend on the membership. -/
def verifyOrigin (m : EncryptionManager) (key : ReceivedEncryptionKey) :
    Except KeyRejection Unit :=
  if key.roomId ≠ m.roomId then .error (.roomMismatch key.roomId)
  else
    match key.origin with
    | .cleartext => .error .cleartext
    | .encrypted _ _ confirmed =>
        if m.config.requireConfirmedSender && !confirmed then .error .senderNotConfirmed
        else .ok ()

section Filter

def filterKey (memberId : String) (keyIndex : UInt8) : String :=
  memberId ++ ":" ++ toString keyIndex.toNat

def isOutdated (f : OutdatedKeyFilter) (memberId : String) (keyIndex : UInt8)
    (candidateTs : ℕ) : Bool :=
  (f.buffer (filterKey memberId keyIndex)).any fun existing => candidateTs < existing

def checkAndAdd (f : OutdatedKeyFilter) (memberId : String) (keyIndex : UInt8)
    (candidateTs : ℕ) : OutdatedKeyFilter × Bool :=
  if isOutdated f memberId keyIndex candidateTs then (f, true)
  else
    ({ f with
      buffer := Function.update f.buffer (filterKey memberId keyIndex) (some candidateTs) }, false)

/-- Entries older than the time to live are dropped. -/
def cleanup (f : OutdatedKeyFilter) (currentTs : ℕ) : OutdatedKeyFilter :=
  { f with buffer := fun k => (f.buffer k).filter fun ts => currentTs - ts < f.bufferTtlMs }

end Filter

/-- At most one entry per index, the newest material; nothing when the same
material is held already. -/
def storeHeld : List InboundEncryptionKey → InboundEncryptionKey →
    Option (List InboundEncryptionKey)
  | [], key => some [key]
  | existing :: rest, key =>
      if existing.keyIndex = key.keyIndex then
        if existing.key = key.key then none else some (key :: rest)
      else (storeHeld rest key).map (existing :: ·)

/-- The store under the key's member id. -/
def storeInbound : List (String × List InboundEncryptionKey) → InboundEncryptionKey →
    Option (List (String × List InboundEncryptionKey))
  | [], key => some [(key.memberId, [key])]
  | (id, held) :: rest, key =>
      if id = key.memberId then (storeHeld held key).map fun held => (id, held) :: rest
      else (storeInbound rest key).map ((id, held) :: ·)

/-- The signal of an inbound key, if a handler is installed and the membership has
an identity. -/
def inboundSignal (m : EncryptionManager) (key : InboundEncryptionKey) (s : JoinedMembership) :
    List Emission :=
  match m.signalHandler, m.peerRtcIdentity s with
  | true, some identity => [.newKeyMaterial s ⟨key.key, key.keyIndex, identity, 0⟩]
  | _, _ => []

def addKeyToParticipant (m : EncryptionManager) (key : InboundEncryptionKey)
    (origin : KeyOrigin) (s : JoinedMembership) : EncryptionManager × List Emission :=
  match storeInbound m.inboundKeys key with
  | none => (m, [])
  | some inbound =>
      let m := { m with inboundKeys := inbound }
      (m, .stored key origin :: inboundSignal m key s)

def signalDiscardedKey (m : EncryptionManager) (key : DiscardedKey) : List Emission :=
  if m.signalHandler then [.discarded key] else []

/-- The filter is consulted only for keys that passed the check, so a rejected key
cannot suppress the genuine one. -/
def acceptVerifiedKey (m : EncryptionManager) (key : InboundEncryptionKey) (origin : KeyOrigin)
    (s : JoinedMembership) : EncryptionManager × Receipt × List Emission :=
  match verifyAgainstMembership origin s with
  | .error reason =>
      (m, .rejected reason,
        signalDiscardedKey m (.new key.memberId (some key.keyIndex) origin reason))
  | .ok () =>
      let (filter, outdated) :=
        checkAndAdd (cleanup m.keyBuffer key.creationTs) key.memberId key.keyIndex key.creationTs
      let m := { m with keyBuffer := filter }
      if outdated then (m, .outdated, [])
      else
        let (m, emitted) := addKeyToParticipant m key origin s
        (m, .accepted, emitted)

variable (decode : String → Except String (List UInt8))

/-- The first membership under a member id. -/
def membershipOf (roster : List JoinedMembership) (memberId : String) : Option JoinedMembership :=
  roster.find? fun s => s.memberId == memberId

/-- `receive_key`; the receipt says what the log line does. -/
def receiveKey (m : EncryptionManager) (roster : List JoinedMembership)
    (received : ReceivedEncryptionKey) (now : ℕ) :
    EncryptionManager × Except CommandError Receipt × List Emission :=
  match verifyOrigin m received with
  | .error reason =>
      (m, .ok (.rejected reason), signalDiscardedKey m
        (.new received.memberId (some received.keyIndex) received.origin reason))
  | .ok () =>
      match decode received.keyB64 with
      | .error e => (m, .error (.serializationError ("Failed to decode key: " ++ e)), [])
      | .ok bytes =>
          let key : InboundEncryptionKey := ⟨bytes, received.keyIndex, received.memberId, now⟩
          match membershipOf roster received.memberId with
          | some s =>
              let (m, receipt, emitted) := acceptVerifiedKey m key received.origin s
              (m, .ok receipt, emitted)
          | none =>
              ({ m with
                keysWithoutMembership := m.keysWithoutMembership ++ [⟨key, received.origin⟩] },
                .ok .buffered, [])

/-- The keys that waited for a membership, in order; those still without one wait on. -/
def checkPending (roster : List JoinedMembership) :
    EncryptionManager → List PendingInboundKey → EncryptionManager × List Emission
  | m, [] => (m, [])
  | m, pending :: rest =>
      match membershipOf roster pending.key.memberId with
      | some s =>
          let (m, _, emitted) := acceptVerifiedKey m pending.key pending.origin s
          let (m, more) := checkPending roster m rest
          (m, emitted ++ more)
      | none =>
          checkPending roster
            { m with keysWithoutMembership := m.keysWithoutMembership ++ [pending] } rest

def checkKeysWithoutMembership (m : EncryptionManager) (roster : List JoinedMembership) :
    EncryptionManager × List Emission :=
  checkPending roster { m with keysWithoutMembership := [] } m.keysWithoutMembership

/-- The held keys of one member id, under the identity of the membership that
carries the id now. -/
def replayHeld (m : EncryptionManager) (roster : List JoinedMembership)
    (held : String × List InboundEncryptionKey) : List Emission :=
  match membershipOf roster held.1 with
  | none => []
  | some s =>
      match m.peerRtcIdentity s with
      | none => []
      | some identity =>
          held.2.map fun key => .newKeyMaterial s ⟨key.key, key.keyIndex, identity, 0⟩

/-- Our own key when it is replayed: it is used after what is left of its delay. -/
def replayOwnKey (m : EncryptionManager) (now : ℕ) : Option KeyMaterialSignal :=
  m.outboundKey.map fun key =>
    let useAfter := match m.signalledKey.filter fun s => s.keyIndex == key.keyIndex with
      | some s => s.useAfterMs - (now - s.atMs)
      | none => 0
    ⟨key.key, key.keyIndex, m.ownRtcIdentity, useAfter⟩

/-- `replay_keys_to_handler`: our own key and the keys of the peers. -/
def replayKeysToHandler (m : EncryptionManager) (roster : List JoinedMembership) (now : ℕ) :
    Option KeyMaterialSignal × List Emission :=
  if m.signalHandler then (replayOwnKey m now, m.inboundKeys.flatMap (replayHeld m roster))
  else (none, [])

/-- A key message from this member: its own user, and its own sending device unless
the host never said how the member event arrived. -/
def FromMember (origin : KeyOrigin) (s : JoinedMembership) : Prop :=
  ∃ user device confirmed, origin = .encrypted user device confirmed ∧ user = s.sender ∧
    (s.origin = .unknown ∨ ∃ d, s.origin.senderDeviceId = some d ∧ device = some d)

theorem verifyAgainstMembership_ok_iff {origin : KeyOrigin} {s : JoinedMembership} :
    verifyAgainstMembership origin s = .ok () ↔ FromMember origin s := by
  cases origin with
  | cleartext => simp [verifyAgainstMembership, FromMember]
  | encrypted user device confirmed =>
      by_cases hu : user = s.sender
      · cases ho : s.origin with
        | unknown => simp [verifyAgainstMembership, FromMember, expectedDevice, hu, ho]
        | cleartext =>
            simp [verifyAgainstMembership, FromMember, expectedDevice, hu, ho,
              EventOrigin.senderDeviceId]
        | encrypted sending =>
            cases sending <;>
              simp [verifyAgainstMembership, FromMember, expectedDevice, hu, ho,
                EventOrigin.senderDeviceId]
        | claimed d =>
            simp [verifyAgainstMembership, FromMember, expectedDevice, hu, ho,
              EventOrigin.senderDeviceId]
      · simp [verifyAgainstMembership, FromMember, hu]

theorem mem_storeHeld {held held' : List InboundEncryptionKey} {key k : InboundEncryptionKey}
    (h : storeHeld held key = some held') (hk : k ∈ held') : k = key ∨ k ∈ held := by
  induction held generalizing held' with
  | nil =>
      cases h
      exact Or.inl (List.mem_singleton.mp hk)
  | cons existing rest ih =>
      simp only [storeHeld] at h
      split_ifs at h with same
      · cases h
        rcases List.mem_cons.mp hk with hk | hk
        · exact Or.inl hk
        · exact Or.inr (List.mem_cons_of_mem _ hk)
      · obtain ⟨rest', hr, rfl⟩ := Option.map_eq_some_iff.mp h
        rcases List.mem_cons.mp hk with hk | hk
        · exact Or.inr (hk ▸ List.mem_cons_self)
        · exact (ih hr hk).imp_right (List.mem_cons_of_mem _)

/-- A key found in the store after storing one is that key or was there before. -/
theorem mem_storeInbound {inbound inbound' : List (String × List InboundEncryptionKey)}
    {key k : InboundEncryptionKey} {entry : String × List InboundEncryptionKey}
    (h : storeInbound inbound key = some inbound') (he : entry ∈ inbound') (hk : k ∈ entry.2) :
    k = key ∨ ∃ entry' ∈ inbound, k ∈ entry'.2 := by
  induction inbound generalizing inbound' with
  | nil =>
      cases h
      rw [List.mem_singleton] at he
      subst he
      exact Or.inl (List.mem_singleton.mp hk)
  | cons first rest ih =>
      obtain ⟨id, held⟩ := first
      simp only [storeInbound] at h
      split_ifs at h with same
      · obtain ⟨held', hh, rfl⟩ := Option.map_eq_some_iff.mp h
        rcases List.mem_cons.mp he with he | he
        · subst he
          exact (mem_storeHeld hh hk).imp_right fun old => ⟨_, List.mem_cons_self, old⟩
        · exact Or.inr ⟨entry, List.mem_cons_of_mem _ he, hk⟩
      · obtain ⟨rest', hr, rfl⟩ := Option.map_eq_some_iff.mp h
        rcases List.mem_cons.mp he with he | he
        · exact Or.inr ⟨entry, he ▸ List.mem_cons_self, hk⟩
        · exact (ih hr he).imp_right fun ⟨e, hm, old⟩ => ⟨e, List.mem_cons_of_mem _ hm, old⟩

/-- Everything `accept_verified_key` can do. -/
inductive Accepts (m : EncryptionManager) (key : InboundEncryptionKey) (origin : KeyOrigin)
    (s : JoinedMembership) (m' : EncryptionManager) (receipt : Receipt)
    (emitted : List Emission) : Prop
  | rejected {reason : KeyRejection} (h : verifyAgainstMembership origin s = .error reason)
      (hm : m' = m) (hr : receipt = .rejected reason)
      (he : ∀ e ∈ emitted, ∃ d, e = .discarded d)
  | passed (h : verifyAgainstMembership origin s = .ok ()) (filter : OutdatedKeyFilter)
      (hm : m' = { m with keyBuffer := filter }) (he : emitted = [])
  | stored (h : verifyAgainstMembership origin s = .ok ()) (filter : OutdatedKeyFilter)
      {inbound : List (String × List InboundEncryptionKey)}
      (hs : storeInbound m.inboundKeys key = some inbound)
      (hm : m' = { m with keyBuffer := filter, inboundKeys := inbound })
      (he : emitted = .stored key origin :: inboundSignal m' key s)

theorem acceptVerifiedKey_spec (m : EncryptionManager) (key : InboundEncryptionKey)
    (origin : KeyOrigin) (s : JoinedMembership) :
    Accepts m key origin s (acceptVerifiedKey m key origin s).1
      (acceptVerifiedKey m key origin s).2.1 (acceptVerifiedKey m key origin s).2.2 := by
  unfold acceptVerifiedKey
  cases hv : verifyAgainstMembership origin s with
  | error reason =>
      refine .rejected hv rfl rfl fun e he => ?_
      simp only [signalDiscardedKey] at he
      split_ifs at he
      · exact ⟨_, List.mem_singleton.mp he⟩
      · simp at he
  | ok _ =>
      dsimp only
      split_ifs
      · exact .passed hv _ rfl rfl
      · unfold addKeyToParticipant
        dsimp only
        cases hs : storeInbound m.inboundKeys key with
        | none => exact .passed hv _ rfl rfl
        | some inbound => exact .stored hv _ hs rfl rfl

/-- The standard base64 of the single byte 1; the concrete runs decode nothing else. -/
def decodeOne (s : String) : Except String (List UInt8) :=
  if s = "AQ==" then .ok [1] else .error "Invalid byte"

/-- The key message of the concrete runs, from Bob's own device. -/
def bobsKey : ReceivedEncryptionKey :=
  ⟨.encrypted "@bob:x" (some "B") true, "!room:x", "bob", "AQ==", 0⟩

end MatrixRtc.InboundKeys

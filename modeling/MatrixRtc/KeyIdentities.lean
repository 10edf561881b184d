import MatrixRtc.InboundKeys
import MatrixRtc.KeyRollout
import MatrixRtc.ListPlaces
import MatrixRtc.MediaTransports
import MatrixRtc.StepRuns

/-!
# Held keys under the identity of their member

The inbound half of the manager with its awaits: a key is stored and handed to the handler
at once, keys that waited for their membership one after the other under the roster read
at the start, and a replay collects its signals before it hands them over one by one. What
the handler was given is kept in order.
-/
namespace MatrixRtc.KeyIdentities
open MemberEvents EncryptionManagers InboundKeys StepRuns
open MediaTransports (identityFor)

def heldAt (held : List InboundEncryptionKey) (index : UInt8) : Option InboundEncryptionKey :=
  held.find? fun key => key.keyIndex == index

def heldKey : List (String × List InboundEncryptionKey) → String → UInt8 →
    Option InboundEncryptionKey
  | [], _, _ => none
  | (id, held) :: rest, memberId, index =>
      if id = memberId then heldAt held index else heldKey rest memberId index

theorem heldAt_storeHeld {held held' : List InboundEncryptionKey} {key : InboundEncryptionKey}
    (h : storeHeld held key = some held') (index : UInt8) :
    heldAt held' index = if key.keyIndex = index then some key else heldAt held index := by
  induction held generalizing held' with
  | nil =>
      cases h
      by_cases same : key.keyIndex = index <;> simp [heldAt, same]
  | cons existing rest ih =>
      simp only [storeHeld] at h
      split_ifs at h with sameIndex
      · cases h
        by_cases same : key.keyIndex = index
        · simp [heldAt, same]
        · simp [heldAt, same, sameIndex]
      · obtain ⟨rest', stored, rfl⟩ := Option.map_eq_some_iff.mp h
        have tail := ih stored
        simp only [heldAt] at tail ⊢
        by_cases here : existing.keyIndex = index
        · have other : key.keyIndex ≠ index := by
            intro eq
            exact sameIndex (here.trans eq.symm)
          simp [here, other]
        · simp [here, tail]

/-- Storing a key changes what is held at its own place only. -/
theorem heldKey_storeInbound {inbound inbound' : List (String × List InboundEncryptionKey)}
    {key : InboundEncryptionKey} (h : storeInbound inbound key = some inbound')
    (memberId : String) (index : UInt8) :
    heldKey inbound' memberId index =
      if key.memberId = memberId ∧ key.keyIndex = index then some key
      else heldKey inbound memberId index := by
  induction inbound generalizing inbound' with
  | nil =>
      cases h
      by_cases id : key.memberId = memberId
      · by_cases same : key.keyIndex = index <;> simp [heldKey, heldAt, id, same]
      · simp [heldKey, id]
  | cons first rest ih =>
      obtain ⟨id, held⟩ := first
      simp only [storeInbound] at h
      split_ifs at h with sameId
      · obtain ⟨held', stored, rfl⟩ := Option.map_eq_some_iff.mp h
        simp only [heldKey]
        by_cases here : id = memberId
        · simp [← here, sameId, heldAt_storeHeld stored]
        · have other : key.memberId ≠ memberId := sameId ▸ here
          simp [here, other]
      · obtain ⟨rest', stored, rfl⟩ := Option.map_eq_some_iff.mp h
        simp only [heldKey, ih stored]
        by_cases here : id = memberId
        · have other : key.memberId ≠ memberId := by
            rintro rfl
            exact sameId here
          simp [here, other]
        · simp [here]

theorem indices_storeHeld {held held' : List InboundEncryptionKey} {key : InboundEncryptionKey}
    (h : storeHeld held key = some held') (once : (held.map InboundEncryptionKey.keyIndex).Nodup) :
    (held'.map InboundEncryptionKey.keyIndex).Nodup ∧
      ∀ index ∈ held'.map InboundEncryptionKey.keyIndex,
        index = key.keyIndex ∨ index ∈ held.map InboundEncryptionKey.keyIndex := by
  induction held generalizing held' with
  | nil =>
      cases h
      simp
  | cons existing rest ih =>
      obtain ⟨fresh, tail⟩ := List.nodup_cons.mp once
      simp only [storeHeld] at h
      split_ifs at h with sameIndex
      · cases h
        rw [sameIndex] at fresh
        simp only [List.map_cons, List.nodup_cons, List.mem_cons]
        exact ⟨⟨fresh, tail⟩, fun index member => member.imp_right Or.inr⟩
      · obtain ⟨rest', stored, rfl⟩ := Option.map_eq_some_iff.mp h
        obtain ⟨once', sub⟩ := ih stored tail
        simp only [List.map_cons, List.nodup_cons, List.mem_cons]
        refine ⟨⟨?_, once'⟩, ?_⟩
        · intro again
          rcases sub _ again with eq | old
          · exact sameIndex eq
          · exact fresh old
        · intro index member
          rcases member with eq | later
          · exact Or.inr (Or.inl eq)
          · exact (sub index later).imp_right Or.inr

/-- A member id has one entry, with one key an index. -/
structure Unique (inbound : List (String × List InboundEncryptionKey)) : Prop where
  ids : (inbound.map Prod.fst).Nodup
  indices : ∀ entry ∈ inbound, (entry.2.map InboundEncryptionKey.keyIndex).Nodup

theorem Unique.tail {first : String × List InboundEncryptionKey}
    {rest : List (String × List InboundEncryptionKey)} (unique : Unique (first :: rest)) :
    Unique rest where
  ids := (List.nodup_cons.mp unique.ids).2
  indices := fun entry member => unique.indices entry (List.mem_cons_of_mem _ member)

theorem Unique.storeInbound {inbound inbound' : List (String × List InboundEncryptionKey)}
    {key : InboundEncryptionKey} (unique : Unique inbound)
    (h : InboundKeys.storeInbound inbound key = some inbound') :
    Unique inbound' ∧ ∀ id ∈ inbound'.map Prod.fst, id = key.memberId ∨
      id ∈ inbound.map Prod.fst := by
  induction inbound generalizing inbound' with
  | nil =>
      cases h
      refine ⟨⟨by simp, ?_⟩, ?_⟩
      · intro entry member
        rw [List.mem_singleton.mp member]
        simp
      · intro id member
        exact Or.inl (List.mem_singleton.mp member)
  | cons first rest ih =>
      obtain ⟨id, held⟩ := first
      simp only [InboundKeys.storeInbound] at h
      split_ifs at h with sameId
      · obtain ⟨held', stored, rfl⟩ := Option.map_eq_some_iff.mp h
        have once := unique.indices (id, held) List.mem_cons_self
        refine ⟨⟨unique.ids, ?_⟩, fun other member => Or.inr member⟩
        intro entry member
        rcases List.mem_cons.mp member with rfl | later
        · exact (indices_storeHeld stored once).1
        · exact unique.indices entry (List.mem_cons_of_mem _ later)
      · obtain ⟨rest', stored, rfl⟩ := Option.map_eq_some_iff.mp h
        obtain ⟨unique', sub⟩ := ih unique.tail stored
        have fresh := (List.nodup_cons.mp unique.ids).1
        refine ⟨⟨?_, ?_⟩, ?_⟩
        · apply List.nodup_cons.mpr
          refine ⟨?_, unique'.ids⟩
          intro again
          rcases sub id again with eq | old
          · exact sameId eq
          · exact fresh old
        · intro entry member
          rcases List.mem_cons.mp member with rfl | later
          · exact unique.indices (id, held) List.mem_cons_self
          · exact unique'.indices entry later
        · intro other member
          rcases List.mem_cons.mp member with rfl | later
          · exact Or.inr List.mem_cons_self
          · exact (sub other later).imp_right (List.mem_cons_of_mem _)

theorem heldAt_of_mem {held : List InboundEncryptionKey} {key : InboundEncryptionKey}
    (once : (held.map InboundEncryptionKey.keyIndex).Nodup) (member : key ∈ held) :
    heldAt held key.keyIndex = some key := by
  induction held with
  | nil => cases member
  | cons existing rest ih =>
      obtain ⟨fresh, tail⟩ := List.nodup_cons.mp once
      rcases List.mem_cons.mp member with rfl | later
      · simp [heldAt]
      · have other : existing.keyIndex ≠ key.keyIndex := by
          intro eq
          exact fresh (List.mem_map.mpr ⟨key, later, eq.symm⟩)
        have found := ih tail later
        simp only [heldAt] at found ⊢
        simp [other, found]

theorem Unique.heldKey {inbound : List (String × List InboundEncryptionKey)}
    {entry : String × List InboundEncryptionKey} {key : InboundEncryptionKey}
    (unique : Unique inbound) (member : entry ∈ inbound) (held : key ∈ entry.2) :
    KeyIdentities.heldKey inbound entry.1 key.keyIndex = some key := by
  induction inbound with
  | nil => cases member
  | cons first rest ih =>
      obtain ⟨id, keys⟩ := first
      simp only [KeyIdentities.heldKey]
      rcases List.mem_cons.mp member with rfl | later
      · simp [heldAt_of_mem (unique.indices _ List.mem_cons_self) held]
      · have other : id ≠ entry.1 := by
          intro eq
          exact (List.nodup_cons.mp unique.ids).1 (List.mem_map.mpr ⟨entry, later, eq.symm⟩)
        simp [other, ih unique.tail later]

theorem mem_of_heldKey {inbound : List (String × List InboundEncryptionKey)} {memberId : String}
    {index : UInt8} {key : InboundEncryptionKey} (h : heldKey inbound memberId index = some key) :
    key.keyIndex = index ∧ ∃ entry ∈ inbound, entry.1 = memberId ∧ key ∈ entry.2 := by
  induction inbound with
  | nil => cases h
  | cons first rest ih =>
      obtain ⟨id, keys⟩ := first
      simp only [heldKey] at h
      split_ifs at h with here
      · have found := List.find?_some h
        refine ⟨by simpa using found, (id, keys), List.mem_cons_self, here, ?_⟩
        exact List.mem_of_find?_eq_some h
      · obtain ⟨index, entry, member, eq, held⟩ := ih h
        exact ⟨index, entry, List.mem_cons_of_mem _ member, eq, held⟩

/-- What an operation in progress still has to do. -/
inductive Task where
  | attached
  | replaying (signals : List KeyMaterialSignal)
  | checking (roster : List JoinedMembership) (keys : List PendingInboundKey)
  | done
deriving DecidableEq

structure System where
  manager : EncryptionManager
  roster : List JoinedMembership
  tasks : List Task
  delivered : List KeyMaterialSignal

inductive Action where
  | setRoster (roster : List JoinedMembership)
  | receiveKey (message : ReceivedEncryptionKey) (now : ℕ)
  | onMembershipsUpdate
  | attachHandler (mapper : IdentitySubject → Option String)
  | signalOwnKey (key : OutboundEncryptionKey) (useAfterMs : ℕ)
  | resume (i : ℕ) (now : ℕ)

def signalOf : Emission → Option KeyMaterialSignal
  | .newKeyMaterial _ signal => some signal
  | .discarded _ | .stored _ _ => none

namespace System

/-- The handler is given a signal. -/
def deliver (s : System) (signal : KeyMaterialSignal) : System :=
  { s with delivered := s.delivered ++ [signal] }

def emit (s : System) (emitted : List Emission) : System :=
  (emitted.filterMap signalOf).foldl deliver s

def setTask (s : System) (i : ℕ) (task : Task) : System :=
  { s with tasks := s.tasks.set i task }

end System

/-- The signals of the keys held, as the replay collects them. -/
def heldSignals (m : EncryptionManager) (roster : List JoinedMembership) :
    List KeyMaterialSignal :=
  m.inboundKeys.flatMap fun entry => (replayHeld m roster entry).filterMap signalOf

/-- `replay_keys_to_handler` up to its first signal. -/
def replaySignals (m : EncryptionManager) (roster : List JoinedMembership) (now : ℕ) :
    List KeyMaterialSignal :=
  if m.signalHandler then (replayOwnKey m now).toList ++ heldSignals m roster else []

/-- One key that waited for its membership, in `check_keys_without_membership`. -/
def checkNext (s : System) (roster : List JoinedMembership) (pending : PendingInboundKey) :
    System :=
  match membershipOf roster pending.key.memberId with
  | some membership =>
      let (m, _, emitted) := acceptVerifiedKey s.manager pending.key pending.origin membership
      { s with manager := m }.emit emitted
  | none =>
      { s with manager := { s.manager with
        keysWithoutMembership := s.manager.keysWithoutMembership ++ [pending] } }

section Step
variable (decode : String → Except String (List UInt8))

def step (s : System) : Action → Option System
  | .setRoster roster => some { s with roster := roster }
  | .receiveKey message now =>
      let (m, _, emitted) := receiveKey decode s.manager s.roster message now
      some ({ s with manager := m }.emit emitted)
  | .onMembershipsUpdate =>
      if s.manager.config.manageMediaKeys then
        some { s with
          manager := { s.manager with keysWithoutMembership := [] }
          tasks := s.tasks ++ [.checking s.roster s.manager.keysWithoutMembership] }
      else some s
  | .attachHandler mapper =>
      some { s with
        manager := { s.manager with signalHandler := true, identityMapper := some mapper }
        tasks := s.tasks ++ [.attached] }
  | .signalOwnKey key useAfterMs =>
      match KeyRollout.signalKeyToApp s.manager key useAfterMs with
      | none => some s
      | some signal => some (s.deliver signal)
  | .resume i now =>
      match s.tasks[i]? with
      | some .attached =>
          some (s.setTask i (.replaying (replaySignals s.manager s.roster now)))
      | some (.replaying (signal :: rest)) => some ((s.deliver signal).setTask i (.replaying rest))
      | some (.checking roster (pending :: rest)) =>
          some ((checkNext s roster pending).setTask i (.checking roster rest))
      | some (.replaying []) | some (.checking _ []) => some (s.setTask i .done)
      | some .done | none => none

end Step

def start (setup : Setup) (roster : List JoinedMembership) : System :=
  ⟨EncryptionManager.new setup, roster, [], []⟩

/-- A handler and a mapper are installed. -/
def Installed (m : EncryptionManager) : Prop :=
  m.signalHandler = true ∧ m.identityMapper.isSome = true

instance : DecidablePred Installed := fun _ => inferInstanceAs (Decidable (_ ∧ _))

/-- The bytes the handler was given last for an identity at an index. -/
def lastDelivered (delivered : List KeyMaterialSignal) (identity : String) (index : UInt8) :
    Option (List UInt8) :=
  (delivered.reverse.find? fun d => d.rtcBackendIdentity == identity && d.keyIndex == index).map
    KeyMaterialSignal.key

/-- With nothing in progress every key held for a member who has an identity is the one
the handler was given last for it. -/
def HeldInstalled (s : System) : Prop :=
  Installed s.manager → (∀ task ∈ s.tasks, task = .done) → (s.roster.map (·.memberId)).Nodup →
    ∀ membership ∈ s.roster, ∀ identity ∈ s.manager.peerRtcIdentity membership,
      ∀ entry ∈ s.manager.inboundKeys, entry.1 = membership.memberId → ∀ key ∈ entry.2,
        lastDelivered s.delivered identity key.keyIndex = some key.key

instance : DecidablePred HeldInstalled := fun s =>
  inferInstanceAs (Decidable (Installed s.manager → (∀ task ∈ s.tasks, task = .done) →
    (s.roster.map (·.memberId)).Nodup → ∀ membership ∈ s.roster,
      ∀ identity ∈ s.manager.peerRtcIdentity membership,
        ∀ entry ∈ s.manager.inboundKeys, entry.1 = membership.memberId → ∀ key ∈ entry.2,
          lastDelivered s.delivered identity key.keyIndex = some key.key))

/-- The task will hand the key over under this identity. -/
def Replays (key : InboundEncryptionKey) (identity : String) : Task → Prop
  | .attached => True
  | .replaying signals => ⟨key.key, key.keyIndex, identity, 0⟩ ∈ signals
  | .checking _ _ | .done => False

/-- A replay is about to hand the key over under this identity. -/
def Replayed (s : System) (key : InboundEncryptionKey) (identity : String) : Prop :=
  ∃ task ∈ s.tasks, Replays key identity task

/-- The signal replaces no key held for a member of the roster who has its identity, the
member excepted aside: theirs is the same one, or is about to be replayed. -/
def Spares (s : System) (excepted : Option String) (signal : KeyMaterialSignal) : Prop :=
  Installed s.manager → ∀ entry ∈ s.manager.inboundKeys, some entry.1 ≠ excepted →
    ∀ membership ∈ membershipOf s.roster entry.1,
      s.manager.peerRtcIdentity membership = some signal.rtcBackendIdentity →
        ∀ key ∈ entry.2, key.keyIndex = signal.keyIndex →
          key.key = signal.key ∨ Replayed s key signal.rtcBackendIdentity

/-- The member has this identity in the roster. -/
def HasIdentity (s : System) (memberId identity : String) : Prop :=
  ∃ membership ∈ membershipOf s.roster memberId,
    s.manager.peerRtcIdentity membership = some identity

/-- The next signal of an operation spares the keys held, and a key that waited for its
membership is accepted under the identity the member has by now. -/
def TaskInTurn (s : System) : Task → Prop
  | .replaying (signal :: _) => Spares s none signal
  | .checking roster (pending :: _) =>
      ∀ membership ∈ membershipOf roster pending.key.memberId,
        (∀ identity ∈ s.manager.peerRtcIdentity membership, Spares s (some pending.key.memberId)
          ⟨pending.key.key, pending.key.keyIndex, identity, 0⟩) ∧
        (Installed s.manager → ∀ now ∈ membershipOf s.roster pending.key.memberId,
          ∀ identity ∈ s.manager.peerRtcIdentity now,
            s.manager.peerRtcIdentity membership = some identity)
  | .attached | .replaying [] | .checking _ [] | .done => True

/-- A new roster gives no member another identity once keys are held for them, unless the
handler was given these keys for that identity last or a replay is about to; and what is
handed over spares the keys held. -/
def InTurn (decode : String → Except String (List UInt8)) (s : System) : Action → Prop
  | .setRoster roster => Installed s.manager → ∀ entry ∈ s.manager.inboundKeys,
      ∀ membership ∈ membershipOf roster entry.1,
        ∀ identity ∈ s.manager.peerRtcIdentity membership, HasIdentity s entry.1 identity ∨
          ∀ key ∈ entry.2, lastDelivered s.delivered identity key.keyIndex = some key.key ∨
            Replayed s key identity
  | .receiveKey message _ => ∀ bytes ∈ (decode message.keyB64).toOption,
      ∀ membership ∈ membershipOf s.roster message.memberId,
        ∀ identity ∈ s.manager.peerRtcIdentity membership,
          Spares s (some message.memberId) ⟨bytes, message.keyIndex, identity, 0⟩
  | .signalOwnKey key _ => Spares s none ⟨key.key, key.keyIndex, s.manager.ownRtcIdentity, 0⟩
  | .resume i _ => ∀ task ∈ s.tasks[i]?, TaskInTurn s task
  | .onMembershipsUpdate | .attachHandler _ => True

/-- The handler was given the key last for this identity, or a replay is about to. -/
def Given (s : System) (key : InboundEncryptionKey) (identity : String) : Prop :=
  lastDelivered s.delivered identity key.keyIndex = some key.key ∨ Replayed s key identity

/-- The key held for a member is given under the identity the roster derives. -/
def GivenAt (s : System) (memberId : String) (index : UInt8) : Prop :=
  ∀ membership, membershipOf s.roster memberId = some membership →
    ∀ identity, s.manager.peerRtcIdentity membership = some identity →
      ∀ key, heldKey s.manager.inboundKeys memberId index = some key → Given s key identity

structure Inv (s : System) : Prop where
  unique : Unique s.manager.inboundKeys
  given : Installed s.manager → ∀ memberId index, GivenAt s memberId index

section Delivery
variable {s : System} {signal : KeyMaterialSignal}

theorem lastDelivered_append (delivered : List KeyMaterialSignal) (signal : KeyMaterialSignal)
    (identity : String) (index : UInt8) :
    lastDelivered (delivered ++ [signal]) identity index =
      if signal.rtcBackendIdentity = identity ∧ signal.keyIndex = index then some signal.key
      else lastDelivered delivered identity index := by
  by_cases same : signal.rtcBackendIdentity = identity ∧ signal.keyIndex = index
  · simp [lastDelivered, same]
  · have other : (signal.rtcBackendIdentity == identity && signal.keyIndex == index) = false := by
      simpa using same
    simp [lastDelivered, other, same]

theorem Given.deliver {key : InboundEncryptionKey} {identity : String}
    (given : Given s key identity)
    (spared : signal.rtcBackendIdentity = identity → signal.keyIndex = key.keyIndex →
      key.key = signal.key ∨ Replayed s key identity) : Given (s.deliver signal) key identity := by
  have last := lastDelivered_append s.delivered signal identity key.keyIndex
  by_cases same : signal.rtcBackendIdentity = identity ∧ signal.keyIndex = key.keyIndex
  · rw [if_pos same] at last
    rcases spared same.1 same.2 with bytes | replayed
    · left
      exact last.trans (congrArg some bytes.symm)
    · exact Or.inr replayed
  · rw [if_neg same] at last
    rcases given with now | replayed
    · exact Or.inl (last.trans now)
    · exact Or.inr replayed

theorem Inv.deliver (inv : Inv s) (spares : Spares s none signal) : Inv (s.deliver signal) := by
  constructor
  · exact inv.unique
  · intro installed memberId index membership there identity derived key held
    apply (inv.given installed memberId index membership there identity derived key held).deliver
    rintro rfl same
    obtain ⟨-, entry, member, rfl, within⟩ := mem_of_heldKey held
    exact spares installed entry member (by simp) membership there derived key within same.symm

end Delivery

section Acceptance
variable {s : System} {key : InboundEncryptionKey} {filter : OutdatedKeyFilter}
  {inbound : List (String × List InboundEncryptionKey)}

def afterStore (s : System) (filter : OutdatedKeyFilter)
    (inbound : List (String × List InboundEncryptionKey)) : System :=
  { s with manager := { s.manager with keyBuffer := filter, inboundKeys := inbound } }

theorem givenAt_afterStore {memberId : String} {index : UInt8}
    (stored : storeInbound s.manager.inboundKeys key = some inbound)
    (given : GivenAt s memberId index)
    (other : ¬ (key.memberId = memberId ∧ key.keyIndex = index)) :
    GivenAt (afterStore s filter inbound) memberId index := by
  intro membership there identity derived held at_
  change heldKey inbound memberId index = some held at at_
  rw [heldKey_storeInbound stored, if_neg other] at at_
  exact given membership there identity derived held at_

/-- A stored key whose membership has an identity is handed over under it. -/
theorem Inv.storeSignalled {identity : String} (inv : Inv s)
    (stored : storeInbound s.manager.inboundKeys key = some inbound)
    (spares : Spares s (some key.memberId) ⟨key.key, key.keyIndex, identity, 0⟩)
    (same : Installed s.manager → ∀ now, membershipOf s.roster key.memberId = some now →
      ∀ current, s.manager.peerRtcIdentity now = some current → current = identity) :
    Inv ((afterStore s filter inbound).deliver ⟨key.key, key.keyIndex, identity, 0⟩) := by
  constructor
  · exact (inv.unique.storeInbound stored).1
  · intro installed memberId index now there current derived held at_
    by_cases here : key.memberId = memberId ∧ key.keyIndex = index
    · obtain ⟨rfl, rfl⟩ := here
      change heldKey inbound key.memberId key.keyIndex = some held at at_
      rw [heldKey_storeInbound stored, if_pos ⟨rfl, rfl⟩] at at_
      cases at_
      obtain rfl := same installed now there current derived
      left
      exact (lastDelivered_append ..).trans (if_pos ⟨rfl, rfl⟩)
    · have kept : GivenAt (afterStore s filter inbound) memberId index :=
        givenAt_afterStore stored (inv.given installed memberId index) here
      apply (kept now there current derived held at_).deliver
      rintro rfl sameIndex
      change heldKey inbound memberId index = some held at at_
      rw [heldKey_storeInbound stored, if_neg here] at at_
      obtain ⟨place, entry, member, rfl, within⟩ := mem_of_heldKey at_
      apply spares installed entry member ?_ now there derived held within sameIndex.symm
      intro own
      exact here ⟨(Option.some.inj own).symm, sameIndex.trans place⟩

theorem Inv.storeSilent (inv : Inv s)
    (stored : storeInbound s.manager.inboundKeys key = some inbound)
    (none_now : Installed s.manager → ∀ now, membershipOf s.roster key.memberId = some now →
      s.manager.peerRtcIdentity now = none) :
    Inv (afterStore s filter inbound) := by
  constructor
  · exact (inv.unique.storeInbound stored).1
  · intro installed memberId index
    by_cases here : key.memberId = memberId ∧ key.keyIndex = index
    · obtain ⟨rfl, rfl⟩ := here
      intro now there current derived
      cases (none_now installed now there).symm.trans derived
    · exact givenAt_afterStore stored (inv.given installed memberId index) here

theorem emit_discarded {emitted : List Emission} (s : System)
    (all : ∀ e ∈ emitted, ∃ d, e = .discarded d) : s.emit emitted = s := by
  have silent : emitted.filterMap signalOf = [] := by
    apply List.filterMap_eq_nil_iff.mpr
    intro e member
    obtain ⟨d, rfl⟩ := all e member
    rfl
  rw [System.emit, silent]
  rfl

theorem Inv.accept {origin : KeyOrigin} {membership : JoinedMembership} (inv : Inv s)
    (spares : ∀ identity, s.manager.peerRtcIdentity membership = some identity →
      Spares s (some key.memberId) ⟨key.key, key.keyIndex, identity, 0⟩)
    (same : Installed s.manager → ∀ now, membershipOf s.roster key.memberId = some now →
      ∀ identity, s.manager.peerRtcIdentity now = some identity →
        s.manager.peerRtcIdentity membership = some identity) :
    Inv ({ s with manager := (acceptVerifiedKey s.manager key origin membership).1 }.emit
      (acceptVerifiedKey s.manager key origin membership).2.2) := by
  cases acceptVerifiedKey_spec s.manager key origin membership with
  | rejected _ hm _ he =>
      rw [emit_discarded _ he, hm]
      exact inv
  | passed _ filter hm he =>
      rw [he, hm]
      exact ⟨inv.unique, inv.given⟩
  | stored _ filter hs hm he =>
      rw [he, hm]
      -- storing touches neither the handler nor the mapper
      unfold inboundSignal
      split
      · rename_i identity handler derived
        change s.manager.peerRtcIdentity membership = some identity at derived
        apply inv.storeSignalled hs (spares identity derived)
        intro installed now there current derived'
        have eq := same installed now there current derived'
        exact Option.some.inj (eq.symm.trans derived)
      · rename_i silent
        apply inv.storeSilent hs
        intro installed now there
        cases derived : s.manager.peerRtcIdentity now with
        | none => rfl
        | some identity =>
            exact absurd (same installed now there identity derived)
              (silent identity installed.1)

end Acceptance

section Steps
variable {decode : String → Except String (List UInt8)} {s : System}

theorem Inv.receiveKey {message : ReceivedEncryptionKey} {now : ℕ} (inv : Inv s)
    (turn : InTurn decode s (.receiveKey message now)) :
    Inv ({ s with manager := (InboundKeys.receiveKey decode s.manager s.roster message now).1
      }.emit (InboundKeys.receiveKey decode s.manager s.roster message now).2.2) := by
  unfold InboundKeys.receiveKey
  cases verifyOrigin s.manager message with
  | error reason =>
      dsimp only
      rw [emit_discarded]
      · exact inv
      · intro e member
        unfold signalDiscardedKey at member
        split_ifs at member
        · exact ⟨_, List.mem_singleton.mp member⟩
        · cases member
  | ok _ =>
      dsimp only
      cases decoded : decode message.keyB64 with
      | error e => exact inv
      | ok bytes =>
          dsimp only
          cases there : membershipOf s.roster message.memberId with
          | none => exact ⟨inv.unique, inv.given⟩
          | some membership =>
              apply inv.accept
              · intro identity derived
                exact turn bytes (by rw [decoded]; rfl) membership there identity derived
              · intro _ now there' identity derived
                cases there.symm.trans there'
                exact derived

/-- A task goes on without taking back what it was to replay. -/
theorem Inv.setTask {i : ℕ} {was task : Task} (inv : Inv s) (present : s.tasks[i]? = some was)
    (kept : Installed s.manager → ∀ memberId membership,
      membershipOf s.roster memberId = some membership →
        ∀ identity, s.manager.peerRtcIdentity membership = some identity →
          ∀ index key, heldKey s.manager.inboundKeys memberId index = some key →
            Replays key identity was →
              lastDelivered s.delivered identity key.keyIndex = some key.key ∨
                Replays key identity task) :
    Inv (s.setTask i task) := by
  constructor
  · exact inv.unique
  · intro installed memberId index membership there identity derived key held
    rcases inv.given installed memberId index membership there identity derived key held with
      now | ⟨other, member, replays⟩
    · exact Or.inl now
    · obtain ⟨j, at_⟩ := List.mem_iff_getElem?.mp member
      by_cases here : j = i
      · obtain rfl := here
        obtain rfl : was = other := Option.some.inj (present.symm.trans at_)
        rcases kept installed memberId membership there identity derived index key held replays
          with now | goes
        · exact Or.inl now
        · exact Or.inr ⟨task, ListPlaces.set_mem present, goes⟩
      · exact Or.inr ⟨other, ListPlaces.mem_of_ne here at_, replays⟩

theorem Inv.setTask_idle {i : ℕ} {was task : Task} (inv : Inv s)
    (present : s.tasks[i]? = some was)
    (idle : ∀ key identity, ¬ Replays key identity was) : Inv (s.setTask i task) := by
  apply inv.setTask present
  intro _ _ _ _ identity _ _ key _ replays
  exact absurd replays (idle key identity)

theorem mem_heldSignals {m : EncryptionManager} {roster : List JoinedMembership}
    {memberId identity : String} {membership : JoinedMembership} {index : UInt8}
    {key : InboundEncryptionKey} (there : membershipOf roster memberId = some membership)
    (derived : m.peerRtcIdentity membership = some identity)
    (held : heldKey m.inboundKeys memberId index = some key) :
    ⟨key.key, key.keyIndex, identity, 0⟩ ∈ heldSignals m roster := by
  obtain ⟨-, entry, member, rfl, within⟩ := mem_of_heldKey held
  apply List.mem_flatMap.mpr
  refine ⟨entry, member, List.mem_filterMap.mpr
    ⟨.newKeyMaterial membership ⟨key.key, key.keyIndex, identity, 0⟩, ?_, rfl⟩⟩
  simp only [replayHeld, there, derived]
  exact List.mem_map.mpr ⟨key, within, rfl⟩

theorem Inv.collect {i : ℕ} (now : ℕ) (inv : Inv s) (present : s.tasks[i]? = some .attached) :
    Inv (s.setTask i (.replaying (replaySignals s.manager s.roster now))) := by
  apply inv.setTask present
  intro installed memberId membership there identity derived index key held _
  right
  change _ ∈ replaySignals s.manager s.roster now
  rw [replaySignals, if_pos installed.1]
  exact List.mem_append_right _ (mem_heldSignals there derived held)

theorem Inv.replay {i : ℕ} {signal : KeyMaterialSignal} {rest : List KeyMaterialSignal}
    (inv : Inv s) (spares : Spares s none signal)
    (present : s.tasks[i]? = some (.replaying (signal :: rest))) :
    Inv ((s.deliver signal).setTask i (.replaying rest)) := by
  apply (inv.deliver spares).setTask present
  intro _ memberId membership _ identity _ index key _ replays
  rcases List.mem_cons.mp replays with rfl | later
  · left
    exact (lastDelivered_append ..).trans (if_pos ⟨rfl, rfl⟩)
  · exact Or.inr later

theorem Inv.checkNext {roster : List JoinedMembership} {pending : PendingInboundKey}
    {rest : List PendingInboundKey} (inv : Inv s)
    (turn : TaskInTurn s (.checking roster (pending :: rest))) :
    Inv (KeyIdentities.checkNext s roster pending) := by
  unfold KeyIdentities.checkNext
  cases there : membershipOf roster pending.key.memberId with
  | none => exact ⟨inv.unique, inv.given⟩
  | some membership =>
      obtain ⟨spares, same⟩ := turn membership there
      exact inv.accept spares same

theorem foldl_deliver_tasks (s : System) (signals : List KeyMaterialSignal) :
    (signals.foldl System.deliver s).tasks = s.tasks := by
  induction signals generalizing s with
  | nil => rfl
  | cons signal rest ih => exact ih (s.deliver signal)

theorem checkNext_tasks (s : System) (roster : List JoinedMembership)
    (pending : PendingInboundKey) : (KeyIdentities.checkNext s roster pending).tasks = s.tasks := by
  unfold KeyIdentities.checkNext
  cases membershipOf roster pending.key.memberId with
  | none => rfl
  | some membership => exact foldl_deliver_tasks _ _

theorem Inv.resume {i now : ℕ} {t : System} (inv : Inv s) (turn : InTurn decode s (.resume i now))
    (h : step decode s (.resume i now) = some t) : Inv t := by
  simp only [step] at h
  split at h
  · rename_i present
    cases h
    exact inv.collect now present
  · rename_i signal rest present
    cases h
    exact inv.replay (turn _ present) present
  · rename_i roster pending rest present
    cases h
    apply (inv.checkNext (turn _ present)).setTask_idle
    · rw [checkNext_tasks]
      exact present
    · intro _ _ replays
      exact replays
  · rename_i present
    cases h
    apply inv.setTask_idle present
    intro _ _ replays
    cases replays
  · rename_i roster present
    cases h
    apply inv.setTask_idle present
    intro _ _ replays
    exact replays
  · cases h
  · cases h

theorem Inv.spawn {task : Task} (inv : Inv s) : Inv { s with tasks := s.tasks ++ [task] } := by
  constructor
  · exact inv.unique
  · intro installed memberId index membership there identity derived key held
    rcases inv.given installed memberId index membership there identity derived key held with
      now | ⟨other, member, replays⟩
    · exact Or.inl now
    · exact Or.inr ⟨other, List.mem_append_left _ member, replays⟩

theorem Inv.setRoster {roster : List JoinedMembership} (inv : Inv s)
    (turn : InTurn decode s (.setRoster roster)) : Inv { s with roster := roster } := by
  constructor
  · exact inv.unique
  · intro installed memberId index membership there identity derived key held
    obtain ⟨-, entry, member, rfl, within⟩ := mem_of_heldKey held
    rcases turn installed entry member membership there identity derived with
      ⟨was, before, same⟩ | given
    · exact inv.given installed entry.1 index was before identity same key held
    · exact given key within

theorem Inv.step {a : Action} {t : System} (inv : Inv s) (turn : InTurn decode s a)
    (h : KeyIdentities.step decode s a = some t) : Inv t := by
  cases a with
  | setRoster roster =>
      cases h
      exact inv.setRoster turn
  | receiveKey message now =>
      cases h
      exact inv.receiveKey turn
  | onMembershipsUpdate =>
      simp only [KeyIdentities.step] at h
      split_ifs at h
      · cases h
        have emptied : Inv { s with
            manager := { s.manager with keysWithoutMembership := [] } } :=
          ⟨inv.unique, inv.given⟩
        exact emptied.spawn
      · cases h
        exact inv
  | attachHandler mapper =>
      cases h
      constructor
      · exact inv.unique
      · intro _ memberId index membership _ identity _ key _
        exact Or.inr ⟨.attached, List.mem_append_right _ (List.mem_singleton.mpr rfl), trivial⟩
  | signalOwnKey key useAfterMs =>
      simp only [KeyIdentities.step, KeyRollout.signalKeyToApp] at h
      split_ifs at h
      · cases h
        apply inv.deliver
        intro installed entry member other membership there derived
        exact turn installed entry member other membership there derived
      · cases h
        exact inv
  | resume i now => exact inv.resume turn h

end Steps

theorem start_inv (setup : Setup) (roster : List JoinedMembership) : Inv (start setup roster) := by
  constructor
  · constructor
    · exact List.nodup_nil
    · intro entry member
      cases member
  · intro _ memberId index membership _ identity _ key held
    cases held

theorem membershipOf_of_nodup {roster : List JoinedMembership} {membership : JoinedMembership}
    (distinct : (roster.map (·.memberId)).Nodup) (member : membership ∈ roster) :
    membershipOf roster membership.memberId = some membership := by
  induction roster with
  | nil => cases member
  | cons first rest ih =>
      obtain ⟨fresh, tail⟩ := List.nodup_cons.mp distinct
      rcases List.mem_cons.mp member with rfl | later
      · simp [membershipOf]
      · have other : first.memberId ≠ membership.memberId := by
          intro eq
          exact fresh (List.mem_map.mpr ⟨membership, later, eq.symm⟩)
        have found := ih tail later
        simp only [membershipOf] at found ⊢
        simp [other, found]

/-- The keys held are installed under their member's identity in a run in which no roster
gives a member whose keys are held another identity they were not given for, and whatever
is handed over spares the keys held. -/
theorem held_keys_installed (decode : String → Except String (List UInt8)) (setup : Setup)
    (roster : List JoinedMembership) (as : List Action) {t : System}
    (turns : Admissible (step decode) (InTurn decode) (start setup roster) as)
    (h : run (step decode) (start setup roster) as = some t) : HeldInstalled t := by
  have inv : Inv t := by
    apply run_invariant (I := Inv) _ (start_inv setup roster) turns h
    intro s a u inv turn taken
    exact inv.step turn taken
  intro installed finished distinct membership joined identity derived entry member eq key within
  have there := membershipOf_of_nodup distinct joined
  rw [← eq] at there
  have held := inv.unique.heldKey member within
  rcases inv.given installed entry.1 key.keyIndex membership there identity derived key held with
    now | ⟨task, present, replays⟩
  · exact now
  · rw [finished task present] at replays
    exact absurd replays id

section Runs

instance (key : InboundEncryptionKey) (identity : String) : DecidablePred (Replays key identity)
  | .attached => isTrue trivial
  | .replaying _ => inferInstanceAs (Decidable (_ ∈ _))
  | .checking _ _ | .done => isFalse id

instance (s : System) (key : InboundEncryptionKey) (identity : String) :
    Decidable (Replayed s key identity) :=
  inferInstanceAs (Decidable (∃ task ∈ s.tasks, Replays key identity task))

instance (s : System) (excepted : Option String) : DecidablePred (Spares s excepted) :=
  fun signal =>
  inferInstanceAs (Decidable (Installed s.manager → ∀ entry ∈ s.manager.inboundKeys,
    some entry.1 ≠ excepted → ∀ membership ∈ membershipOf s.roster entry.1,
      s.manager.peerRtcIdentity membership = some signal.rtcBackendIdentity →
        ∀ key ∈ entry.2, key.keyIndex = signal.keyIndex →
          key.key = signal.key ∨ Replayed s key signal.rtcBackendIdentity))

instance (s : System) (memberId identity : String) : Decidable (HasIdentity s memberId identity) :=
  inferInstanceAs (Decidable (∃ membership ∈ membershipOf s.roster memberId, _))

instance (s : System) : DecidablePred (TaskInTurn s)
  | .replaying (signal :: _) => inferInstanceAs (Decidable (Spares s none signal))
  | .checking roster (pending :: _) => inferInstanceAs (Decidable
      (∀ membership ∈ membershipOf roster pending.key.memberId,
        (∀ identity ∈ s.manager.peerRtcIdentity membership, Spares s (some pending.key.memberId)
          ⟨pending.key.key, pending.key.keyIndex, identity, 0⟩) ∧
        (Installed s.manager → ∀ now ∈ membershipOf s.roster pending.key.memberId,
          ∀ identity ∈ s.manager.peerRtcIdentity now,
            s.manager.peerRtcIdentity membership = some identity)))
  | .attached | .replaying [] | .checking _ [] | .done => isTrue trivial

instance (decode : String → Except String (List UInt8)) (s : System) :
    DecidablePred (InTurn decode s)
  | .setRoster roster => inferInstanceAs (Decidable (Installed s.manager →
      ∀ entry ∈ s.manager.inboundKeys, ∀ membership ∈ membershipOf roster entry.1,
        ∀ identity ∈ s.manager.peerRtcIdentity membership, HasIdentity s entry.1 identity ∨
          ∀ key ∈ entry.2, lastDelivered s.delivered identity key.keyIndex = some key.key ∨
            Replayed s key identity))
  | .receiveKey message _ => inferInstanceAs (Decidable
      (∀ bytes ∈ (decode message.keyB64).toOption,
        ∀ membership ∈ membershipOf s.roster message.memberId,
          ∀ identity ∈ s.manager.peerRtcIdentity membership,
            Spares s (some message.memberId) ⟨bytes, message.keyIndex, identity, 0⟩))
  | .signalOwnKey key _ => inferInstanceAs (Decidable
      (Spares s none ⟨key.key, key.keyIndex, s.manager.ownRtcIdentity, 0⟩))
  | .resume i _ => inferInstanceAs (Decidable (∀ task ∈ s.tasks[i]?, TaskInTurn s task))
  | .onMembershipsUpdate | .attachHandler _ => isTrue trivial

/-- Bob's membership before he names a transport, and after. -/
def silentBob : JoinedMembership := callMembership "@bob:x" "B" "bob" "bob"

def serviceTransport : LiveKitTransport := ⟨none, some "https://sfu.x", none, by decide, by decide⟩

def namedBob : JoinedMembership :=
  { silentBob with transports := [.liveKit serviceTransport] }

def mapper : IdentitySubject → Option String := identityFor fun _ _ => ""

/-- Bob's key is stored before a handler is attached, which is then given it. -/
def attachedLater : List Action :=
  [.receiveKey bobsKey 5, .attachHandler mapper, .resume 0 6, .resume 0 6, .resume 0 6]

theorem attachedLater_installed :
    ∃ t, run (step decodeOne) (start alice [namedBob]) attachedLater = some t ∧
      HeldInstalled t := by
  refine ⟨_, rfl, ?_⟩
  exact held_keys_installed decodeOne alice [namedBob] attachedLater (by decide) rfl

/-- Bob's key is stored while he names no transport, so under no identity; naming one,
and the update that follows, hand nothing over. -/
theorem not_always_installed : ¬ ∀ (decode : String → Except String (List UInt8))
    (setup : Setup) (roster : List JoinedMembership) (as : List Action) (t : System),
    run (step decode) (start setup roster) as = some t → HeldInstalled t := by
  intro always
  have broken := always decodeOne alice [silentBob]
    [.attachHandler mapper, .resume 0 5, .resume 0 5, .receiveKey bobsKey 6,
      .setRoster [namedBob], .onMembershipsUpdate, .resume 1 7] _ rfl
  revert broken
  decide

end Runs

end MatrixRtc.KeyIdentities

import MatrixRtc.InboundKeys
import MatrixRtc.StepRuns

/-!
# Where a signalled key comes from

Runs of the inbound half of the encryption manager with arbitrary messages and
rosters. Beside the manager a run keeps every message received and everything
emitted. A key is checked against one membership when it is accepted; a replay
derives the identity from whichever membership carries the member id by then, and
checks nothing, so the binding survives only if that membership would still pass.
-/
namespace MatrixRtc.KeyProvenance
open MemberEvents EncryptionManagers InboundKeys StepRuns

structure System where
  manager : EncryptionManager
  roster : List JoinedMembership
  received : List ReceivedEncryptionKey
  emitted : List Emission

inductive Action where
  | setRoster (roster : List JoinedMembership)
  | receiveKey (message : ReceivedEncryptionKey) (now : ℕ)
  | onMembershipsUpdate
  | attachHandler (mapper : Option (IdentitySubject → Option String))
  | replayKeysToHandler (now : ℕ)

section Runs
variable (decode : String → Except String (List UInt8))

def step (s : System) : Action → Option System
  | .setRoster roster => some { s with roster := roster }
  | .receiveKey message now =>
      let (m, _, emitted) := receiveKey decode s.manager s.roster message now
      some
        { s with
          manager := m
          received := message :: s.received
          emitted := s.emitted ++ emitted }
  | .onMembershipsUpdate =>
      if s.manager.config.manageMediaKeys then
        let (m, emitted) := checkKeysWithoutMembership s.manager s.roster
        some { s with manager := m, emitted := s.emitted ++ emitted }
      else some s
  | .attachHandler mapper =>
      some { s with manager := { s.manager with signalHandler := true, identityMapper := mapper } }
  | .replayKeysToHandler now =>
      some { s with emitted := s.emitted ++ (replayKeysToHandler s.manager s.roster now).2 }

def start (setup : Setup) (roster : List JoinedMembership) : System :=
  ⟨EncryptionManager.new setup, roster, [], []⟩

/-- The message brought these bytes under this index, encrypted, in this room, and
from a confirmed sender where that is required. -/
structure Brought (room : String) (confirm : Bool) (message : ReceivedEncryptionKey)
    (bytes : List UInt8) (keyIndex : UInt8) : Prop where
  bytes : decode message.keyB64 = .ok bytes
  index : message.keyIndex = keyIndex
  inRoom : message.roomId = room
  encrypted : ∃ user device confirmed, message.origin = .encrypted user device confirmed ∧
    (confirm = true → confirmed = true)

variable (room : String) (confirm : Bool) (received : List ReceivedEncryptionKey)

/-- Some message received brought this key with this origin. -/
def Genuine (key : InboundEncryptionKey) (origin : KeyOrigin) : Prop :=
  ∃ message ∈ received, Brought decode room confirm message key.key key.keyIndex ∧
    message.origin = origin

/-- The signal carries what a message from this very member brought. -/
def Attested (membership : JoinedMembership) (signal : KeyMaterialSignal) : Prop :=
  ∃ message ∈ received, Brought decode room confirm message signal.key signal.keyIndex ∧
    FromMember message.origin membership

/-- What holds of each emission. -/
def Sound : Emission → Prop
  | .newKeyMaterial membership signal => Attested decode room confirm received membership signal
  | .discarded _ => True
  | .stored key origin => Genuine decode room confirm received key origin

structure Inv (m : EncryptionManager) (emitted : List Emission) : Prop where
  sameRoom : m.roomId = room
  sameConfirm : m.config.requireConfirmedSender = confirm
  pending : ∀ p ∈ m.keysWithoutMembership, Genuine decode room confirm received p.key p.origin
  held : ∀ entry ∈ m.inboundKeys, ∀ key ∈ entry.2, ∃ origin, Emission.stored key origin ∈ emitted
  sound : ∀ e ∈ emitted, Sound decode room confirm received e

end Runs

/-- The origin a key was stored with, if this is its storing. -/
def storedWith (key : InboundEncryptionKey) : Emission → Option KeyOrigin
  | .stored k origin => if k = key then some origin else none
  | _ => none

/-- At a replay, the membership that carries a held member id passes the check the
held keys passed when they were stored. -/
def ReplaysVerified (s : System) : Action → Prop
  | .replayKeysToHandler _ =>
      ∀ entry ∈ s.manager.inboundKeys, ∀ membership ∈ membershipOf s.roster entry.1,
        ∀ key ∈ entry.2, ∀ origin ∈ s.emitted.filterMap (storedWith key),
          verifyAgainstMembership origin membership = .ok ()
  | _ => True

instance (s : System) : (a : Action) → Decidable (ReplaysVerified s a)
  | .replayKeysToHandler _ =>
      inferInstanceAs (Decidable (∀ entry ∈ s.manager.inboundKeys, _))
  | .setRoster _ | .receiveKey .. | .onMembershipsUpdate | .attachHandler _ => isTrue trivial

section Keeps
variable {decode : String → Except String (List UInt8)}
variable {room : String} {confirm : Bool} {received : List ReceivedEncryptionKey}

theorem Genuine.mono {more : List ReceivedEncryptionKey} {key : InboundEncryptionKey}
    {origin : KeyOrigin} (sub : ∀ m ∈ received, m ∈ more)
    (h : Genuine decode room confirm received key origin) :
    Genuine decode room confirm more key origin := by
  obtain ⟨message, hm, brought, ho⟩ := h
  exact ⟨message, sub message hm, brought, ho⟩

theorem Sound.mono {more : List ReceivedEncryptionKey} {e : Emission}
    (sub : ∀ m ∈ received, m ∈ more) (h : Sound decode room confirm received e) :
    Sound decode room confirm more e := by
  cases e with
  | newKeyMaterial membership signal =>
      obtain ⟨message, hm, brought, sender⟩ := h
      exact ⟨message, sub message hm, brought, sender⟩
  | discarded d => trivial
  | stored key origin => exact Genuine.mono sub h

theorem Inv.mono {m : EncryptionManager} {emitted : List Emission}
    {more : List ReceivedEncryptionKey} (sub : ∀ m ∈ received, m ∈ more)
    (inv : Inv decode room confirm received m emitted) :
    Inv decode room confirm more m emitted :=
  { inv with
    pending := fun p hp => (inv.pending p hp).mono sub
    sound := fun e he => (inv.sound e he).mono sub }

theorem Inv.emit {m : EncryptionManager} {emitted more : List Emission}
    (inv : Inv decode room confirm received m emitted)
    (sound : ∀ e ∈ more, Sound decode room confirm received e) :
    Inv decode room confirm received m (emitted ++ more) := by
  refine { inv with held := fun entry hentry k hk => ?_, sound := fun e he => ?_ }
  · obtain ⟨o, ho⟩ := inv.held entry hentry k hk
    exact ⟨o, List.mem_append_left _ ho⟩
  · rcases List.mem_append.mp he with old | new
    · exact inv.sound e old
    · exact sound e new

/-- Accepting a genuine key keeps everything sound. -/
theorem acceptVerifiedKey_inv {m : EncryptionManager} {emitted : List Emission}
    {key : InboundEncryptionKey} {origin : KeyOrigin} (membership : JoinedMembership)
    (inv : Inv decode room confirm received m emitted)
    (genuine : Genuine decode room confirm received key origin) :
    Inv decode room confirm received (acceptVerifiedKey m key origin membership).1
      (emitted ++ (acceptVerifiedKey m key origin membership).2.2) := by
  cases acceptVerifiedKey_spec m key origin membership with
  | rejected h hm hr he =>
      rw [hm]
      refine inv.emit fun e he' => ?_
      obtain ⟨d, rfl⟩ := he e he'
      trivial
  | passed h filter hm he =>
      rw [hm, he, List.append_nil]
      exact { inv with }
  | stored h filter hs hm he =>
      rw [he, hm]
      refine ⟨inv.sameRoom, inv.sameConfirm, inv.pending,
        fun entry hentry k hk => ?_, fun e he' => ?_⟩
      · rcases mem_storeInbound hs hentry hk with rfl | ⟨entry', hentry', hk'⟩
        · exact ⟨origin, by simp⟩
        · obtain ⟨o, ho⟩ := inv.held entry' hentry' k hk'
          exact ⟨o, List.mem_append_left _ ho⟩
      · rcases List.mem_append.mp he' with old | new
        · exact inv.sound e old
        · rcases List.mem_cons.mp new with rfl | signalled
          · exact genuine
          · unfold inboundSignal at signalled
            split at signalled
            · rw [List.mem_singleton] at signalled
              subst signalled
              obtain ⟨message, hmem, brought, ho⟩ := genuine
              exact ⟨message, hmem, brought, ho ▸ verifyAgainstMembership_ok_iff.mp h⟩
            · simp at signalled

theorem genuine_of_verified {m : EncryptionManager} {message : ReceivedEncryptionKey}
    {bytes : List UInt8} (now : ℕ) (ok : verifyOrigin m message = .ok ())
    (decoded : decode message.keyB64 = .ok bytes) (hm : message ∈ received) :
    Genuine decode m.roomId m.config.requireConfirmedSender received
      ⟨bytes, message.keyIndex, message.memberId, now⟩ message.origin := by
  unfold verifyOrigin at ok
  split_ifs at ok with hroom
  cases ho : message.origin with
  | cleartext => simp [ho] at ok
  | encrypted user device confirmed =>
      refine ⟨message, hm,
        ⟨decoded, rfl, by simpa using hroom, user, device, confirmed, ho, ?_⟩, ho⟩
      intro required
      by_contra unconfirmed
      simp [ho, required, unconfirmed] at ok

theorem receiveKey_inv {m : EncryptionManager} {emitted : List Emission}
    {message : ReceivedEncryptionKey} (roster : List JoinedMembership) (now : ℕ)
    (inv : Inv decode room confirm received m emitted) (hm : message ∈ received) :
    Inv decode room confirm received (receiveKey decode m roster message now).1
      (emitted ++ (receiveKey decode m roster message now).2.2) := by
  unfold receiveKey
  cases hv : verifyOrigin m message with
  | error reason =>
      refine inv.emit fun e he => ?_
      simp only [signalDiscardedKey] at he
      split_ifs at he
      · rw [List.mem_singleton] at he
        subst he
        trivial
      · simp at he
  | ok _ =>
      dsimp only
      cases hd : decode message.keyB64 with
      | error e =>
          simp only [List.append_nil]
          exact inv
      | ok bytes =>
          have genuine := genuine_of_verified now hv hd hm
          rw [inv.sameRoom, inv.sameConfirm] at genuine
          dsimp only
          cases membershipOf roster message.memberId with
          | some s => exact acceptVerifiedKey_inv s inv genuine
          | none =>
              simp only [List.append_nil]
              refine { inv with pending := fun p hp => ?_ }
              rcases List.mem_append.mp hp with old | new
              · exact inv.pending p old
              · rw [List.mem_singleton] at new
                subst new
                exact genuine

theorem checkPending_inv {roster : List JoinedMembership} {waiting : List PendingInboundKey}
    {m : EncryptionManager} {emitted : List Emission}
    (inv : Inv decode room confirm received m emitted)
    (genuine : ∀ p ∈ waiting, Genuine decode room confirm received p.key p.origin) :
    Inv decode room confirm received (checkPending roster m waiting).1
      (emitted ++ (checkPending roster m waiting).2) := by
  induction waiting generalizing m emitted with
  | nil => simpa [checkPending] using inv
  | cons p rest ih =>
      have later : ∀ q ∈ rest, Genuine decode room confirm received q.key q.origin :=
        fun q hq => genuine q (List.mem_cons_of_mem _ hq)
      have this := genuine p List.mem_cons_self
      unfold checkPending
      cases membershipOf roster p.key.memberId with
      | some s =>
          dsimp only
          rw [← List.append_assoc]
          exact ih (acceptVerifiedKey_inv s inv this) later
      | none =>
          refine ih { inv with pending := fun q hq => ?_ } later
          rcases List.mem_append.mp hq with old | new
          · exact inv.pending q old
          · rw [List.mem_singleton] at new
            subst new
            exact this

theorem replay_inv {s : System} {now : ℕ}
    (inv : Inv decode room confirm received s.manager s.emitted)
    (ok : ReplaysVerified s (.replayKeysToHandler now)) :
    Inv decode room confirm received s.manager
      (s.emitted ++ (replayKeysToHandler s.manager s.roster now).2) := by
  refine inv.emit fun e he => ?_
  unfold replayKeysToHandler at he
  split_ifs at he
  · obtain ⟨entry, hentry, he⟩ := List.mem_flatMap.mp he
    unfold replayHeld at he
    cases hs : membershipOf s.roster entry.1 with
    | none => simp [hs] at he
    | some membership =>
        simp only [hs] at he
        cases hi : s.manager.peerRtcIdentity membership with
        | none => simp [hi] at he
        | some identity =>
            simp only [hi, List.mem_map] at he
            obtain ⟨key, hkey, rfl⟩ := he
            obtain ⟨origin, stored⟩ := inv.held entry hentry key hkey
            obtain ⟨message, hm, brought, ho⟩ := inv.sound _ stored
            have listed : origin ∈ s.emitted.filterMap (storedWith key) :=
              List.mem_filterMap.mpr ⟨_, stored, by simp [storedWith]⟩
            have passes := ok entry hentry membership hs key hkey origin listed
            exact ⟨message, hm, brought, ho ▸ verifyAgainstMembership_ok_iff.mp passes⟩
  · simp at he

/-- The invariant of a run, at the received messages and settings of its state. -/
def Kept (decode : String → Except String (List UInt8)) (room : String) (confirm : Bool)
    (s : System) : Prop :=
  Inv decode room confirm s.received s.manager s.emitted

theorem step_kept {s t : System} {a : Action} (inv : Kept decode room confirm s)
    (ok : ReplaysVerified s a) (h : step decode s a = some t) : Kept decode room confirm t := by
  cases a with
  | setRoster roster =>
      cases h
      exact inv
  | receiveKey message now =>
      cases h
      exact receiveKey_inv s.roster now (Inv.mono (fun _ => List.mem_cons_of_mem _) inv)
        List.mem_cons_self
  | onMembershipsUpdate =>
      simp only [step] at h
      split_ifs at h
      · cases h
        exact checkPending_inv { inv with pending := by simp } inv.pending
      · cases h
        exact inv
  | attachHandler mapper =>
      cases h
      exact { inv with }
  | replayKeysToHandler now =>
      cases h
      exact replay_inv inv ok

theorem start_kept (setup : Setup) (roster : List JoinedMembership) :
    Kept decode setup.roomId setup.config.requireConfirmedSender (start setup roster) :=
  ⟨rfl, rfl, by simp [start, EncryptionManager.new], by simp [start, EncryptionManager.new],
    by simp [start]⟩

end Keeps

/-- Key provenance: after every run whose replays find, under each held member id,
a membership that passes the check made when the keys were stored, every inbound
signal carries the bytes of a message that arrived encrypted in this room from the
membership's own sender and device, and from a confirmed sender if required. -/
theorem signalled_keys_are_attested (decode : String → Except String (List UInt8))
    (setup : Setup) (roster : List JoinedMembership) (actions : List Action) (s : System)
    (verified : Admissible (step decode) ReplaysVerified (start setup roster) actions)
    (reach : run (step decode) (start setup roster) actions = some s)
    (membership : JoinedMembership) (signal : KeyMaterialSignal)
    (signalled : Emission.newKeyMaterial membership signal ∈ s.emitted) :
    ∃ message ∈ s.received,
      decode message.keyB64 = .ok signal.key ∧ message.keyIndex = signal.keyIndex ∧
      message.roomId = setup.roomId ∧
      ∃ user device confirmed, message.origin = .encrypted user device confirmed ∧
        user = membership.sender ∧
        (membership.origin = .unknown ∨
          ∃ d, membership.origin.senderDeviceId = some d ∧ device = some d) ∧
        (setup.config.requireConfirmedSender = true → confirmed = true) := by
  have kept : Kept decode setup.roomId setup.config.requireConfirmedSender s :=
    run_invariant (fun _ _ _ => step_kept) (start_kept setup roster) verified reach
  obtain ⟨message, hm, brought, user, device, confirmed, ho, sender, sending⟩ :=
    kept.sound _ signalled
  obtain ⟨user', device', confirmed', ho', ok⟩ := brought.encrypted
  obtain ⟨rfl, rfl, rfl⟩ : user = user' ∧ device = device' ∧ confirmed = confirmed' := by
    simpa using ho.symm.trans ho'
  exact ⟨message, hm, brought.bytes, brought.index, brought.inRoom, user, device, confirmed, ho,
    sender, sending, ok⟩

section Concrete

def bobMember : JoinedMembership := callMembership "@bob:x" "B" "bob" "bob"

/-- Eve's membership under the member id Bob had. -/
def eveMember : JoinedMembership := callMembership "@eve:x" "E" "bob" "bob"

/-- The identity of the legacy JWT service. -/
def userAndDevice (subject : IdentitySubject) : Option String :=
  subject.deviceId.map fun device => subject.userId ++ ":" ++ device

/-- Bob's key arrives before his membership, is accepted when it appears, and is
replayed to a handler attached later. -/
def bobReplayed : List Action :=
  [.receiveKey bobsKey 5, .setRoster [bobMember], .onMembershipsUpdate,
    .attachHandler (some userAndDevice), .replayKeysToHandler 9]

theorem bobs_signal_is_attested :
    ∃ s ∈ run (step decodeOne) (start alice []) bobReplayed,
      Emission.newKeyMaterial bobMember ⟨[1], 0, "@bob:x:B", 0⟩ ∈ s.emitted ∧
        ∃ message ∈ s.received, decodeOne message.keyB64 = .ok [1] := by
  have reached : ∃ s ∈ run (step decodeOne) (start alice []) bobReplayed,
      Emission.newKeyMaterial bobMember ⟨[1], 0, "@bob:x:B", 0⟩ ∈ s.emitted := by
    decide
  obtain ⟨s, reach, signalled⟩ := reached
  obtain ⟨message, hm, bytes, -⟩ := signalled_keys_are_attested decodeOne alice [] bobReplayed s
    (by decide) reach _ _ signalled
  exact ⟨s, reach, signalled, message, hm, bytes⟩

/-- Eve joins under the member id Bob had, after his key was accepted and he left. -/
def eveTookTheId : List Action :=
  [.receiveKey bobsKey 5, .setRoster [bobMember], .onMembershipsUpdate,
    .attachHandler (some userAndDevice),
    .setRoster [eveMember], .replayKeysToHandler 9]

def senderUserId : KeyOrigin → Option String
  | .encrypted user _ _ => some user
  | .cleartext => none

/-- The replay signals Bob's key under Eve's membership, from whom nothing came. -/
theorem bobs_key_signalled_as_eves :
    ∃ s ∈ run (step decodeOne) (start alice []) eveTookTheId,
      Emission.newKeyMaterial eveMember ⟨[1], 0, "@eve:x:E", 0⟩ ∈ s.emitted ∧
        ∀ message ∈ s.received, senderUserId message.origin ≠ some "@eve:x" := by
  decide

end Concrete

end MatrixRtc.KeyProvenance

import MatrixRtc.KeyRollout
import MatrixRtc.StepRuns

/-!
# Rollouts and retries one at a time

The distribution of the outbound key when each operation runs to its end before
the next begins. A run keeps, beside the manager, every call of
`send_to_device_message` and the clock of the first rollout that saw each
participation in its roster; neither is state of the program.
-/
namespace MatrixRtc.SequentialRollouts
open HostAnswers MemberEvents EncryptionManagers KeyRollout StepRuns

/-- A whole rollout, with the host's answer and the clock when the handler has
taken the signal of a new key. -/
def rolloutOutboundKey (m : EncryptionManager) (roster : List JoinedMembership)
    (input : RolloutInput) (answer : SendAnswer) (signalledAt : ℕ) : EncryptionManager :=
  match beginRollout m roster input with
  | (m, none) => m
  | (m, some p) =>
      let m := finishRollout m p (servedBy p.addressed answer)
      if p.rotating then recordSignalled m p.key p.useAfterMs signalledAt else m

def rolloutSends (m : EncryptionManager) (roster : List JoinedMembership)
    (input : RolloutInput) : List KeySend :=
  match beginRollout m roster input with
  | (_, none) => []
  | (m, some p) => (rolloutSend m p).toList

/-- A whole retry. -/
def retryUndeliveredKey (m : EncryptionManager) (roster : List JoinedMembership)
    (memberId : String) (answer : SendAnswer) : EncryptionManager × Except CommandError KeyRetry :=
  match beginRetry m roster memberId with
  | (m, .ended result) => (m, .ok result)
  | (m, .sending r) => finishRetry m r answer

def retrySends (m : EncryptionManager) (roster : List JoinedMembership) (memberId : String) :
    List KeySend :=
  match beginRetry m roster memberId with
  | (_, .ended _) => []
  | (m, .sending r) => [retrySend m r]

structure State where
  manager : EncryptionManager
  clock : ℕ
  firstSeen : Participation → Option ℕ
  sent : List KeySend

inductive Op where
  | rollout (roster : List JoinedMembership) (input : RolloutInput) (answer : SendAnswer)
      (signalledAt : ℕ)
  | retry (roster : List JoinedMembership) (memberId : String) (answer : SendAnswer)

/-- The participations of a roster are seen at `now` unless they were before. -/
def see (firstSeen : Participation → Option ℕ) (roster : List JoinedMembership) (now : ℕ) :
    Participation → Option ℕ :=
  fun x => (firstSeen x).or (if x ∈ roster.map participationOf then some now else none)

def step (s : State) : Op → Option State
  | .rollout roster input answer signalledAt =>
      if s.clock ≤ input.now ∧ input.now ≤ input.mintedAt ∧ input.mintedAt ≤ signalledAt then
        some
          { manager := rolloutOutboundKey s.manager roster input answer signalledAt
            clock := signalledAt
            firstSeen := see s.firstSeen roster input.now
            sent := s.sent ++ rolloutSends s.manager roster input }
      else none
  | .retry roster memberId answer =>
      some
        { s with
          manager := (retryUndeliveredKey s.manager roster memberId answer).1
          sent := s.sent ++ retrySends s.manager roster memberId }

/-- A manager that has just joined. -/
def start (setup : Setup) (key : List UInt8) (now : ℕ) : State :=
  { manager := (EncryptionManager.new setup).join key now
    clock := now
    firstSeen := fun _ => none
    sent := [] }

/-- The host answered the send and reported this target as sent. -/
def Reported (answer : SendAnswer) (t : ParticipantDeviceInfo) : Prop :=
  ∃ deliveries, answer = .ok deliveries ∧ reached deliveries t = true

/-- Everything a whole rollout can do to the manager, up to the record of what
was signalled. -/
inductive Rolls (m : EncryptionManager) (participants : List ParticipantDeviceInfo)
    (input : RolloutInput) (answer : SendAnswer) (m' : EncryptionManager) : Prop
  | noKey (h : m.outboundKey = none) (key : m'.outboundKey = none)
  | nothing {current : OutboundEncryptionKey} (h : m.outboundKey = some current)
      (nobody : joined current participants = [])
      (key : m'.outboundKey = some current)
      (owed : m'.undelivered = retainOwed m.undelivered participants)
  | rotates {current : OutboundEncryptionKey} (h : m.outboundKey = some current)
      (reachedAll : List ParticipantDeviceInfo)
      (sub : ∀ t ∈ reachedAll, t ∈ participants ∧ Reported answer t)
      (key : m'.outboundKey = some ⟨input.key, m.nextKeyIndex, input.mintedAt, reachedAll⟩)
      (owed : m'.undelivered =
        recordOwed (fun _ => none) m.nextKeyIndex reachedAll participants)
  | shares {current : OutboundEncryptionKey} (h : m.outboundKey = some current)
      (fresh : input.now < current.creationTs + m.config.freshnessMs)
      (reachedAll : List ParticipantDeviceInfo)
      (sub : ∀ t ∈ reachedAll, t ∈ joined current participants ∧ Reported answer t)
      (key : m'.outboundKey =
        some { current with sharedWith := addHolders current.sharedWith reachedAll })
      (owed : m'.undelivered = recordOwed (retainOwed m.undelivered participants)
        current.keyIndex reachedAll (joined current participants))

theorem mem_servedBy_addressAll {roster : List JoinedMembership}
    {targets : List ParticipantDeviceInfo} {answer : SendAnswer} {t : ParticipantDeviceInfo}
    (h : t ∈ servedBy (addressAll roster targets) answer) :
    t ∈ targets ∧ Reported answer t := by
  obtain ⟨a, ha, rfl⟩ := mem_servedBy h
  refine ⟨(mem_addressAll ha).1, ?_⟩
  cases answer with
  | error e => simp [servedBy] at h
  | ok deliveries => exact ⟨deliveries, rfl, (List.mem_filter.mp h).2⟩

theorem rolloutOutboundKey_done {m m' : EncryptionManager} {roster : List JoinedMembership}
    {input : RolloutInput} (hb : beginRollout m roster input = (m', none)) (answer : SendAnswer)
    (signalledAt : ℕ) : rolloutOutboundKey m roster input answer signalledAt = m' := by
  simp only [rolloutOutboundKey, hb]

/-- After its send a rollout leaves the key and the owed members as
`finishRollout` does; the record of the signal is elsewhere. -/
theorem rolloutOutboundKey_pending {m m' : EncryptionManager} {roster : List JoinedMembership}
    {input : RolloutInput} {p : PendingRollout} (hb : beginRollout m roster input = (m', some p))
    (answer : SendAnswer) (signalledAt : ℕ) :
    (rolloutOutboundKey m roster input answer signalledAt).outboundKey =
        (finishRollout m' p (servedBy p.addressed answer)).outboundKey ∧
      (rolloutOutboundKey m roster input answer signalledAt).undelivered =
        (finishRollout m' p (servedBy p.addressed answer)).undelivered := by
  simp only [rolloutOutboundKey, hb]
  split_ifs
  · simp
  · exact ⟨rfl, rfl⟩

theorem rolloutOutboundKey_spec (m : EncryptionManager) (roster : List JoinedMembership)
    (input : RolloutInput) (answer : SendAnswer) (signalledAt : ℕ) :
    Rolls m (m.currentParticipants roster) input answer
      (rolloutOutboundKey m roster input answer signalledAt) := by
  have spec := beginRollout_spec m roster input
  cases hb : beginRollout m roster input with
  | mk m' pending =>
      rw [hb] at spec
      dsimp only at spec
      cases spec with
      | noKey h hm hp =>
          subst hm hp
          rw [rolloutOutboundKey_done hb]
          exact .noKey h h
      | nothing h kept nobody hm hp =>
          subst hm hp
          rw [rolloutOutboundKey_done hb]
          exact .nothing h nobody h rfl
      | rotates h due hm hp =>
          subst hp
          obtain ⟨key, owed⟩ := rolloutOutboundKey_pending hb answer signalledAt
          obtain ⟨stored, recorded⟩ := finishRollout_rotates m'
            (servedBy (addressAll roster (m.currentParticipants roster)) answer)
            (show PendingRollout.rotating ⟨true, _, _, _, _, _, _⟩ = true from rfl)
          exact .rotates h _ (fun t ht => mem_servedBy_addressAll ht) (key.trans stored)
            (owed.trans recorded)
      | @shares current h kept waiting _ _ hm hp =>
          have hk : m'.outboundKey = some current :=
            (congrArg EncryptionManager.outboundKey hm).trans h
          have hu : m'.undelivered = retainOwed m.undelivered (m.currentParticipants roster) :=
            congrArg EncryptionManager.undelivered hm
          subst hp
          obtain ⟨key, owed⟩ := rolloutOutboundKey_pending hb answer signalledAt
          obtain ⟨stored, recorded⟩ := finishRollout_shares
            (servedBy (addressAll roster (joined current (m.currentParticipants roster))) answer)
            (show PendingRollout.rotating ⟨false, _, _, _, _, _, _⟩ = false from rfl) hk
          rw [hu] at recorded
          exact .shares h (fresh_of_shared kept waiting) _
            (fun t ht => mem_servedBy_addressAll ht) (key.trans stored) (owed.trans recorded)

theorem rolloutOutboundKey_setup (m : EncryptionManager) (roster : List JoinedMembership)
    (input : RolloutInput) (answer : SendAnswer) (signalledAt : ℕ) :
    (rolloutOutboundKey m roster input answer signalledAt).setup = m.setup := by
  have same := beginRollout_setup m roster input
  unfold rolloutOutboundKey
  cases hb : beginRollout m roster input with
  | mk m' pending =>
      rw [hb] at same
      cases pending with
      | none => exact same
      | some p =>
          dsimp only
          split_ifs
          · rw [recordSignalled_setup, finishRollout_setup, same]
          · rw [finishRollout_setup, same]

/-- The send carries this key's material. -/
def Carries (send : KeySend) (key : OutboundEncryptionKey) : Prop :=
  send.key = key.key ∧ send.keyIndex = key.keyIndex ∧ send.mintedAt = key.creationTs

theorem mem_rolloutSend {m : EncryptionManager} {p : PendingRollout} {send : KeySend}
    (h : send ∈ (rolloutSend m p).toList) :
    p.addressed ≠ [] ∧
      send = ⟨m.roomId, m.ownMemberId, p.key.keyIndex, p.key.key, p.key.creationTs,
        p.addressed⟩ := by
  unfold rolloutSend at h
  split_ifs at h with nobody
  · simp at h
  · exact ⟨nobody, by simpa using h⟩

/-- A rollout sends the key it leaves in place, minted by itself or still fresh,
and addresses only memberships of its own roster. -/
theorem rolloutSends_spec {m : EncryptionManager} {roster : List JoinedMembership}
    {input : RolloutInput} {send : KeySend} (answer : SendAnswer) (signalledAt : ℕ)
    (h : send ∈ rolloutSends m roster input) :
    (∃ key, (rolloutOutboundKey m roster input answer signalledAt).outboundKey = some key ∧
      Carries send key) ∧
    (send.mintedAt = input.mintedAt ∨ input.now < send.mintedAt + m.config.freshnessMs) ∧
    ∀ a ∈ send.addressed, a.target ∈ m.currentParticipants roster ∧ a.membership ∈ roster := by
  have spec := beginRollout_spec m roster input
  unfold rolloutSends at h
  cases hb : beginRollout m roster input with
  | mk m' pending =>
      rw [hb] at spec h
      dsimp only at spec
      cases spec with
      | noKey hk hm hp =>
          subst hp
          simp at h
      | nothing hk kept nobody hm hp =>
          subst hp
          simp at h
      | rotates hk due hm hp =>
          subst hp
          obtain ⟨-, rfl⟩ := mem_rolloutSend h
          have key := (rolloutOutboundKey_pending hb answer signalledAt).1
          rw [(finishRollout_rotates _ _ rfl).1] at key
          refine ⟨⟨_, key, rfl, rfl, rfl⟩, Or.inl rfl, fun a ha => ?_⟩
          exact ⟨(mem_addressAll ha).1, (mem_addressAll ha).2.1⟩
      | @shares current hk kept waiting _ _ hm hp =>
          have hk' : m'.outboundKey = some current :=
            (congrArg EncryptionManager.outboundKey hm).trans hk
          subst hp
          obtain ⟨-, rfl⟩ := mem_rolloutSend h
          have key := (rolloutOutboundKey_pending hb answer signalledAt).1
          rw [(finishRollout_shares _ rfl hk').1] at key
          refine ⟨⟨_, key, rfl, rfl, rfl⟩, Or.inr (fresh_of_shared kept waiting), fun a ha => ?_⟩
          exact ⟨(mem_joined.mp (mem_addressAll ha).1).1, (mem_addressAll ha).2.1⟩

/-- Everything a whole retry can do. -/
inductive Retries (m : EncryptionManager) (memberId : String) (m' : EncryptionManager)
    (result : Except CommandError KeyRetry) : Prop
  | unchanged (same : m' = m) (missed : result ≠ .ok .delivered)
  | rotated {owed : Undelivered} (h : m.undelivered memberId = some owed)
      (gone : ∀ key, m.outboundKey = some key → key.keyIndex ≠ owed.keyIndex)
      (dropped : m' = dropOwed m owed) (missed : result ≠ .ok .delivered)
  | delivered {owed : Undelivered} {key : OutboundEncryptionKey}
      (h : m.undelivered memberId = some owed) (hk : m.outboundKey = some key)
      (current : key.keyIndex = owed.keyIndex)
      (moved : m' = dropOwed (recordRetried m owed) owed) (hit : result = .ok .delivered)

theorem retryUndeliveredKey_spec (m : EncryptionManager) (roster : List JoinedMembership)
    (memberId : String) (answer : SendAnswer) :
    Retries m memberId (retryUndeliveredKey m roster memberId answer).1
      (retryUndeliveredKey m roster memberId answer).2 := by
  unfold retryUndeliveredKey beginRetry
  cases hu : m.undelivered memberId with
  | none => exact .unchanged rfl (by simp)
  | some owed =>
      dsimp only
      cases hk : m.outboundKey.filter fun k => k.keyIndex == owed.keyIndex with
      | none =>
          refine .rotated hu (fun key hkey same => ?_) rfl (by simp)
          simp [hkey, same] at hk
      | some key =>
          obtain ⟨hkey, idx⟩ := Option.filter_eq_some_iff.mp hk
          dsimp only
          cases address roster owed.target with
          | none => exact .unchanged rfl (by simp)
          | some a =>
              cases answer with
              | error e => exact .unchanged rfl (by simp [finishRetry])
              | ok deliveries =>
                  by_cases hs : served [a] deliveries = []
                  · simp only [finishRetry, hs, if_true]
                    exact .unchanged rfl (by simp)
                  · simp only [finishRetry, hs, if_false]
                    exact .delivered hu hkey (by simpa using idx) rfl rfl

theorem retrySends_spec {m : EncryptionManager} {roster : List JoinedMembership}
    {memberId : String} {send : KeySend} (h : send ∈ retrySends m roster memberId) :
    ∃ owed key a, m.undelivered memberId = some owed ∧ m.outboundKey = some key ∧
      key.keyIndex = owed.keyIndex ∧ address roster owed.target = some a ∧
      Carries send key ∧ send.addressed = [a] := by
  unfold retrySends beginRetry at h
  cases hu : m.undelivered memberId with
  | none => simp [hu] at h
  | some owed =>
      simp only [hu] at h
      cases hk : m.outboundKey.filter fun k => k.keyIndex == owed.keyIndex with
      | none => simp [hk] at h
      | some key =>
          obtain ⟨hkey, idx⟩ := Option.filter_eq_some_iff.mp hk
          have idx : key.keyIndex = owed.keyIndex := by simpa using idx
          simp only [hk] at h
          cases ha : address roster owed.target with
          | none => simp [ha] at h
          | some a =>
              obtain rfl : send = _ := by simpa [ha] using h
              exact ⟨owed, key, a, rfl, hkey, idx, ha, ⟨rfl, idx.symm, rfl⟩, rfl⟩

theorem dropOwed_undelivered_le {m : EncryptionManager} {owed o : Undelivered} {id : String}
    (h : (dropOwed m owed).undelivered id = some o) : m.undelivered id = some o := by
  unfold dropOwed at h
  split_ifs at h with current
  · by_cases hid : id = owed.target.memberId
    · subst hid
      simp at h
    · simpa [Function.update_of_ne hid] using h
  · exact h

/-- A retry changes nothing of a key but its holders, and leaves nobody newly owed. -/
theorem retry_keeps {m m' : EncryptionManager} {memberId : String}
    {result : Except CommandError KeyRetry} (h : Retries m memberId m' result) :
    m'.setup = m.setup ∧
      (∀ id o, m'.undelivered id = some o → m.undelivered id = some o) ∧
      ∃ holders : OutboundEncryptionKey → List ParticipantDeviceInfo,
        m'.outboundKey = m.outboundKey.map fun k => { k with sharedWith := holders k } := by
  cases h with
  | unchanged same missed =>
      subst same
      exact ⟨rfl, fun _ _ ho => ho, OutboundEncryptionKey.sharedWith, by simp⟩
  | rotated howed gone dropped missed =>
      subst dropped
      refine ⟨dropOwed_setup _ _, fun id o => dropOwed_undelivered_le,
        OutboundEncryptionKey.sharedWith, by simp⟩
  | @delivered owed key howed hk current moved hit =>
      subst moved
      have owed_le : ∀ id o, (dropOwed (recordRetried m owed) owed).undelivered id = some o →
          (recordRetried m owed).undelivered id = some o := fun _ _ => dropOwed_undelivered_le
      refine ⟨dropOwed_setup _ _, owed_le, fun k =>
        if k.keyIndex = owed.keyIndex ∧ anySameJoin k.sharedWith owed.target = false then
          k.sharedWith ++ [owed.target] else k.sharedWith, ?_⟩
      simp only [dropOwed_outboundKey, recordRetried, hk, Option.map_some, Option.some.injEq]
      split_ifs <;> rfl

theorem recordOwed_cases (undelivered : String → Option Undelivered) (keyIndex : UInt8)
    (reachedAll targets : List ParticipantDeviceInfo) (id : String) :
    (∀ p ∈ targets, p.memberId ≠ id) ∧
        recordOwed undelivered keyIndex reachedAll targets id = undelivered id ∨
      ∃ p ∈ targets, p.memberId = id ∧
        recordOwed undelivered keyIndex reachedAll targets id =
          if anySameJoin reachedAll p then none else some ⟨p, keyIndex⟩ := by
  induction targets generalizing undelivered with
  | nil => exact Or.inl ⟨by simp, rfl⟩
  | cons p rest ih =>
      rcases ih (Function.update undelivered p.memberId
        (if anySameJoin reachedAll p then none else some ⟨p, keyIndex⟩)) with
        ⟨absent, same⟩ | ⟨q, hq, hid, same⟩
      · by_cases hp : p.memberId = id
        · refine Or.inr ⟨p, List.mem_cons_self, hp, ?_⟩
          rw [recordOwed, same, ← hp, Function.update_self]
        · refine Or.inl ⟨?_, ?_⟩
          · rintro q (_ | ⟨_, hq⟩)
            · exact hp
            · exact absent q hq
          · rw [recordOwed, same, Function.update_of_ne (Ne.symm hp)]
      · exact Or.inr ⟨q, List.mem_cons_of_mem _ hq, hid, same⟩

theorem mem_recordOwed {undelivered : String → Option Undelivered} {keyIndex : UInt8}
    {reachedAll targets : List ParticipantDeviceInfo} {id : String} {o : Undelivered}
    (h : recordOwed undelivered keyIndex reachedAll targets id = some o) :
    (undelivered id = some o ∧ ∀ p ∈ targets, p.memberId ≠ id) ∨
      (o.target ∈ targets ∧ o.target.memberId = id ∧ o.keyIndex = keyIndex ∧
        anySameJoin reachedAll o.target = false) := by
  rcases recordOwed_cases undelivered keyIndex reachedAll targets id with
    ⟨absent, same⟩ | ⟨p, hp, hid, same⟩
  · exact Or.inl ⟨same ▸ h, absent⟩
  · rw [same] at h
    split_ifs at h with missed
    cases h
    exact Or.inr ⟨hp, hid, rfl, by simpa using missed⟩

theorem retainOwed_some {undelivered : String → Option Undelivered}
    {participants : List ParticipantDeviceInfo} {id : String} {o : Undelivered}
    (h : retainOwed undelivered participants id = some o) :
    undelivered id = some o ∧ anySameJoin participants o.target = true := by
  simpa [retainOwed, Option.filter_eq_some_iff] using h

/-- Bob's send fails while the key is fresh. -/
def bobMissed : Op :=
  .rollout [bob] ⟨0, 0, [2]⟩ (.ok [.failed ⟨"@bob:x", "B"⟩ "offline"]) 0

end MatrixRtc.SequentialRollouts

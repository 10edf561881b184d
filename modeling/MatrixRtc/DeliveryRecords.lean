import MatrixRtc.LeaveFinality
import MatrixRtc.UpkeepPolling

/-!
# What the delivery record says

The holders of the key in place are recorded as the targets of the rollouts that served
them. A send looks its recipients up by member id alone, the host's answer is read back by
the target's own user and device, and a member counts as holding the key by its member id
and the start of its join. The runs of one join keep, beside the distributions, what the
host reported sent, and compare the record with it.
-/
namespace MatrixRtc.DeliveryRecords
open HostAnswers MemberEvents EncryptionManagers KeyRollout DistributionRuns UpkeepPolling StepRuns

/-- A key reported sent to a recipient it was addressed to. -/
structure Report where
  keyIndex : UInt8
  key : List UInt8
  recipient : ToDeviceRecipient
deriving DecidableEq

structure History where
  base : System
  reports : List Report

def History.start (setup : Setup) (roster : List JoinedMembership) (key : List UInt8)
    (now : ℕ) : History :=
  ⟨DistributionRuns.start setup roster key now, []⟩

inductive Action where
  | act (action : DistributionRuns.Action)
  | forgetUndelivered (memberId : String)
  | leave

def reportedSent (deliveries : List ToDeviceDelivery) (recipient : ToDeviceRecipient) : Bool :=
  deliveries.any fun d => decide (d.recipient = recipient) && d.isSent

/-- The recipients of one send that its answer reports sent. -/
def reportsOf (keyIndex : UInt8) (key : List UInt8) (addressed : List Addressed) :
    SendAnswer → List Report
  | .ok deliveries =>
      (addressed.filter fun a => reportedSent deliveries a.recipient).map fun a =>
        ⟨keyIndex, key, a.recipient⟩
  | .error _ => []

/-- The rollout at its send. -/
def atSend (s : System) : Option PendingRollout :=
  match s.rollout with
  | some (.sending p) => some p
  | _ => none

/-- What the host reports in a step. -/
def reported (s : System) : DistributionRuns.Action → List Report
  | .rolloutAnswered answer _ =>
      ((atSend s).map fun p => reportsOf p.key.keyIndex p.key.key p.addressed answer).getD []
  | .retryAnswered i answer =>
      (s.retries[i]?.map fun r => reportsOf r.owed.keyIndex r.key.key [r.addressed] answer).getD []
  | _ => []

def History.step (h : History) : Action → Option History
  | .act action =>
      (DistributionRuns.step h.base action).map fun t => ⟨t, h.reports ++ reported h.base action⟩
  | .forgetUndelivered memberId =>
      some { h with base := { h.base with
        manager := LeaveFinality.forgetUndelivered h.base.manager memberId } }
  | .leave => some { h with base := { h.base with manager := h.base.manager.leave } }

/-- The roster's members other than this join and this device. -/
def others (m : EncryptionManager) (roster : List JoinedMembership) : List JoinedMembership :=
  roster.filter fun s =>
    !(s.memberId == m.ownMemberId) &&
      !(s.sender == m.ownUserId && s.origin.senderDeviceId == some m.ownDeviceId)

def deviceInfo (s : JoinedMembership) : ParticipantDeviceInfo :=
  ⟨s.sender, s.origin.senderDeviceId.getD "", s.memberId, s.membershipTs⟩

/-- A recorded holder is the same join as the member, and the member is owed no retry. -/
def countsAsHolding (m : EncryptionManager) (key : OutboundEncryptionKey)
    (s : JoinedMembership) : Bool :=
  anySameJoin key.sharedWith (deviceInfo s) &&
    !(m.undelivered s.memberId).any fun owed => owed.target.sameJoin (deviceInfo s)

/-- The key went to the member's own user and device, and was reported sent there. -/
def ReportedSentTo (reports : List Report) (key : OutboundEncryptionKey)
    (s : JoinedMembership) : Prop :=
  ∃ device ∈ s.origin.senderDeviceId, ⟨key.keyIndex, key.key, s.sender, device⟩ ∈ reports

instance (reports : List Report) (key : OutboundEncryptionKey) (s : JoinedMembership) :
    Decidable (ReportedSentTo reports key s) :=
  inferInstanceAs (Decidable (∃ device ∈ s.origin.senderDeviceId, _))

/-- Where another user's membership stands in for the target's, the address is the
target's own all the same. -/
def OwnAddress (a : Addressed) : Prop :=
  a.membership.sender ≠ a.target.userId → a.recipient = ⟨a.target.userId, a.target.deviceId⟩

instance : DecidablePred OwnAddress := fun _ => inferInstanceAs (Decidable (_ → _))

structure Truthful (h : History) : Prop where
  holders : ∀ key ∈ h.base.manager.outboundKey, ∀ s ∈ others h.base.manager h.base.roster,
    countsAsHolding h.base.manager key s = true → ReportedSentTo h.reports key s
  addressed : ∀ send ∈ h.base.sent, ∀ a ∈ send.addressed, OwnAddress a

instance (h : History) : Decidable (Truthful h) :=
  decidable_of_iff
    ((∀ key ∈ h.base.manager.outboundKey, ∀ s ∈ others h.base.manager h.base.roster,
      countsAsHolding h.base.manager key s = true → ReportedSentTo h.reports key s) ∧
      ∀ send ∈ h.base.sent, ∀ a ∈ send.addressed, OwnAddress a)
    ⟨fun both => ⟨both.1, both.2⟩, fun both => ⟨both.holders, both.addressed⟩⟩

/-- The membership was sent by the participant's own user and device. -/
def IsOf (s : JoinedMembership) (x : ParticipantDeviceInfo) : Prop :=
  s.sender = x.userId ∧ s.origin.senderDeviceId = some x.deviceId

instance (s : JoinedMembership) (x : ParticipantDeviceInfo) : Decidable (IsOf s x) :=
  inferInstanceAs (Decidable (_ ∧ _))

/-- Nobody else in the roster is the same join as the participant. -/
def Unmistakable (m : EncryptionManager) (roster : List JoinedMembership)
    (x : ParticipantDeviceInfo) : Prop :=
  ∀ s ∈ others m roster, participationOf s = x.participation → IsOf s x

instance (m : EncryptionManager) (roster : List JoinedMembership) (x : ParticipantDeviceInfo) :
    Decidable (Unmistakable m roster x) :=
  inferInstanceAs (Decidable (∀ s ∈ others m roster, _ → _))

/-- The first membership under the target's member id is one of its own user, or names no
device. -/
def FoundByMemberId (roster : List JoinedMembership) (t : ParticipantDeviceInfo) : Prop :=
  ∀ s ∈ roster.find? (fun s => s.memberId == t.memberId),
    s.sender = t.userId ∨ s.origin.senderDeviceId = none

instance (roster : List JoinedMembership) (t : ParticipantDeviceInfo) :
    Decidable (FoundByMemberId roster t) :=
  inferInstanceAs (Decidable (∀ s ∈ roster.find? (fun s => s.memberId == t.memberId),
    s.sender = t.userId ∨ s.origin.senderDeviceId = none))

/-- A rollout begun now finds each participant it has to serve: everybody if the key
rotates, and else whoever is not recorded as a holder. -/
def Resolves (s : System) (now : ℕ) : Prop :=
  ∀ key ∈ s.manager.outboundKey, ∀ t ∈ s.manager.currentParticipants s.roster,
    rotating s.manager.config key (s.manager.currentParticipants s.roster) now = true ∨
      anySameJoin key.sharedWith t = false → FoundByMemberId s.roster t

instance (s : System) (now : ℕ) : Decidable (Resolves s now) :=
  inferInstanceAs (Decidable (∀ key ∈ s.manager.outboundKey, _))

/-- An operation made now would run a rollout of its own. -/
def runsNow (s : System) : Bool :=
  s.manager.config.manageMediaKeys && !s.manager.keyDistributionInProgress

/-- The state a rollout of this step begins from, and when it decides. -/
def begins (s : System) : DistributionRuns.Action → Option (System × ℕ)
  | .onMembershipsUpdate input =>
      if runsNow s && !signalsEagerly s then some (s, input.first.now) else none
  | .eagerSignalled _ _ input => if runsNow s then some (s, input.first.now) else none
  | .flushDueRotation checkedAt input =>
      if flushRuns s checkedAt then some (s, input.first.now) else none
  | .rolloutAnswered answer next =>
      (atSend s).bind fun p =>
        let u := s.afterSend p (servedBy p.addressed answer)
        if u.rollout.isNone && u.manager.needNewDistribution then some (u, next.now) else none
  | .rolloutSignalled _ next =>
      if s.manager.needNewDistribution then some (s, next.now) else none
  | _ => none

/-- What the step adds to the record, or the roster it is read against, mistakes nobody. -/
def Unmistaken (s : System) : DistributionRuns.Action → Prop
  | .setRoster roster =>
      ∀ key ∈ s.manager.outboundKey, ∀ x ∈ key.sharedWith, Unmistakable s.manager roster x
  | .rolloutAnswered (.ok deliveries) _ =>
      ∀ p ∈ atSend s, ∀ a ∈ p.addressed, reached deliveries a.target = true →
        (∃ b ∈ p.addressed, b.recipient = ⟨a.target.userId, a.target.deviceId⟩) ∧
          Unmistakable s.manager s.roster a.target
  | .retryUndeliveredKey memberId =>
      ∀ owed ∈ s.manager.undelivered memberId, ∀ key ∈ s.manager.outboundKey,
        key.keyIndex = owed.keyIndex → FoundByMemberId s.roster owed.target
  | .retryAnswered i (.ok deliveries) =>
      ∀ r ∈ s.retries[i]?, ∀ key ∈ s.manager.outboundKey, key.keyIndex = r.owed.keyIndex →
        anySameJoin key.sharedWith r.owed.target = false →
        reached deliveries r.owed.target = true →
          r.addressed.recipient = ⟨r.owed.target.userId, r.owed.target.deviceId⟩ ∧
            r.key.key = key.key ∧ Unmistakable s.manager s.roster r.owed.target
  | _ => True

instance (s : System) : DecidablePred (Unmistaken s)
  | .setRoster _ => inferInstanceAs (Decidable (∀ key ∈ s.manager.outboundKey, _))
  | .rolloutAnswered (.ok _) _ => inferInstanceAs (Decidable (∀ p ∈ atSend s, _))
  | .retryUndeliveredKey memberId =>
      inferInstanceAs (Decidable (∀ owed ∈ s.manager.undelivered memberId, _))
  | .retryAnswered i (.ok _) => inferInstanceAs (Decidable (∀ r ∈ s.retries[i]?, _))
  | .rolloutAnswered (.error _) _ | .retryAnswered _ (.error _) | .onMembershipsUpdate _
  | .eagerSignalled .. | .flushDueRotation .. | .rolloutSignalled .. => isTrue trivial

/-- The memberships that the three lookups of a step find are the ones meant. -/
def MemberIdsTell (h : History) : Action → Prop
  | .act action =>
      (∀ begun ∈ begins h.base action, Resolves begun.1 begun.2) ∧ Unmistaken h.base action
  | _ => True

instance (h : History) : DecidablePred (MemberIdsTell h)
  | .act action => inferInstanceAs (Decidable ((∀ begun ∈ begins h.base action, _) ∧ _))
  | .forgetUndelivered _ | .leave => isTrue trivial

/-- Each holder of the key in place was reported sent that key at its own device, and the
roster mistakes nobody for it. A rollout that keeps the key is sending the key in place. -/
structure Recorded (s : System) (reports : List Report) : Prop where
  keyed : ∀ p ∈ atSend s, p.rotating = false → ∀ key ∈ s.manager.outboundKey,
    key.keyIndex = p.key.keyIndex ∧ key.key = p.key.key
  retrying : ∀ r ∈ s.retries, r.addressed.target = r.owed.target
  holders : ∀ key ∈ s.manager.outboundKey, ∀ x ∈ key.sharedWith,
    ⟨key.keyIndex, key.key, x.userId, x.deviceId⟩ ∈ reports ∧ Unmistakable s.manager s.roster x
  addressed : ∀ send ∈ s.sent, ∀ a ∈ send.addressed, OwnAddress a

theorem others_of_setup {m n : EncryptionManager} (h : m.setup = n.setup)
    (roster : List JoinedMembership) : others m roster = others n roster := by
  have user := congrArg Setup.ownUserId h
  have device := congrArg Setup.ownDeviceId h
  have member := congrArg Setup.ownMemberId h
  simp only [EncryptionManager.setup] at user device member
  simp only [others, user, device, member]

theorem Unmistakable.of_setup {m n : EncryptionManager} {roster : List JoinedMembership}
    {x : ParticipantDeviceInfo} (h : Unmistakable m roster x) (same : n.setup = m.setup) :
    Unmistakable n roster x := by
  unfold Unmistakable
  rw [others_of_setup same]
  exact h

theorem Recorded.truthful {h : History} (recorded : Recorded h.base h.reports) : Truthful h := by
  refine ⟨fun key hkey s other counts => ?_, recorded.addressed⟩
  have held : anySameJoin key.sharedWith (deviceInfo s) = true :=
    (Bool.and_eq_true_iff.mp counts).1
  obtain ⟨x, holder, same⟩ := anySameJoin_iff.mp held
  obtain ⟨report, unmistakable⟩ := recorded.holders key hkey x holder
  obtain ⟨sender, device⟩ := unmistakable s other same.symm
  exact ⟨x.deviceId, device, by rwa [sender]⟩

section Steps
variable {s : System} {reports : List Report}

theorem Recorded.of_same (h : Recorded s reports) {t : System} (sends : atSend t = atSend s)
    (retries : t.retries = s.retries) (setup : t.manager.setup = s.manager.setup)
    (key : t.manager.outboundKey = s.manager.outboundKey) (roster : t.roster = s.roster)
    (sent : t.sent = s.sent) : Recorded t reports := by
  refine ⟨?_, ?_, ?_, ?_⟩
  · rw [sends, key]
    exact h.keyed
  · rw [retries]
    exact h.retrying
  · rw [key, roster]
    intro k hk x holder
    obtain ⟨report, unmistakable⟩ := h.holders k hk x holder
    exact ⟨report, unmistakable.of_setup setup⟩
  · rw [sent]
    exact h.addressed

theorem address_spec {roster : List JoinedMembership} {t : ParticipantDeviceInfo}
    {a : Addressed} (h : address roster t = some a) :
    a.target = t ∧ roster.find? (fun s => s.memberId == t.memberId) = some a.membership ∧
      a.membership.origin.senderDeviceId = some a.recipient.deviceId := by
  obtain ⟨s, found, named⟩ := Option.bind_eq_some_iff.mp h
  obtain ⟨device, hdevice, rfl⟩ := Option.map_eq_some_iff.mp named
  exact ⟨rfl, found, hdevice⟩

theorem ownAddress_of_found {roster : List JoinedMembership} {t : ParticipantDeviceInfo}
    {a : Addressed} (h : address roster t = some a) (found : FoundByMemberId roster t) :
    OwnAddress a := by
  obtain ⟨rfl, first, device⟩ := address_spec h
  intro another
  obtain own | nameless := found a.membership first
  · exact absurd own another
  · rw [nameless] at device
    cases device

theorem ownAddress_of_all {roster : List JoinedMembership} {targets : List ParticipantDeviceInfo}
    (found : ∀ t ∈ targets, FoundByMemberId roster t) :
    ∀ a ∈ addressAll roster targets, OwnAddress a := by
  intro a listed
  obtain ⟨t, target, ha⟩ := List.mem_filterMap.mp listed
  exact ownAddress_of_found ha (found t target)

theorem atSend_of_not_sending (h : sending s = false) : atSend s = none := by
  unfold sending at h
  unfold atSend
  split
  · rename_i p hp
    rw [hp] at h
    cases h
  · rfl

/-- A target is recorded only where its own device was reported sent the key. -/
theorem Recorded.afterSend (h : Recorded s reports) {p : PendingRollout}
    {reachedAll : List ParticipantDeviceInfo} {more : List Report}
    (keyed : p.rotating = false → ∀ key ∈ s.manager.outboundKey,
      key.keyIndex = p.key.keyIndex ∧ key.key = p.key.key)
    (reach : ∀ x ∈ reachedAll, ⟨p.key.keyIndex, p.key.key, x.userId, x.deviceId⟩ ∈ more ∧
      Unmistakable s.manager s.roster x) :
    Recorded (s.afterSend p reachedAll) (reports ++ more) := by
  obtain ⟨unsent, -, retries, -⟩ := afterSend_rollout (s := s) p reachedAll
  have manager := LeaveFinality.afterSend_manager (s := s) p reachedAll
  have rest : (s.afterSend p reachedAll).roster = s.roster ∧
      (s.afterSend p reachedAll).sent = s.sent := by
    unfold System.afterSend
    dsimp only
    split <;> exact ⟨rfl, rfl⟩
  refine ⟨?_, ?_, ?_, ?_⟩
  · rw [atSend_of_not_sending unsent]
    simp
  · rw [retries]
    exact h.retrying
  · rw [manager, rest.1]
    intro key hkey x holder
    have same := finishRollout_setup s.manager p reachedAll
    cases rotates : p.rotating with
    | true =>
        obtain rfl := Option.some.inj
          ((finishRollout_rotates s.manager reachedAll rotates).1.symm.trans hkey)
        obtain ⟨report, unmistakable⟩ := reach x holder
        exact ⟨List.mem_append_right _ report, unmistakable.of_setup same⟩
    | false =>
        obtain none | ⟨current, hk⟩ := Option.eq_none_or_eq_some s.manager.outboundKey
        · simp [finishRollout, rotates, none] at hkey
        · obtain rfl := Option.some.inj
            ((finishRollout_shares reachedAll rotates hk).1.symm.trans hkey)
          obtain old | new := mem_addHolders holder
          · obtain ⟨report, unmistakable⟩ := h.holders current hk x old
            exact ⟨List.mem_append_left _ report, unmistakable.of_setup same⟩
          · obtain ⟨index, bytes⟩ := keyed rotates current hk
            obtain ⟨report, unmistakable⟩ := reach x new
            refine ⟨List.mem_append_right _ ?_, unmistakable.of_setup same⟩
            rw [index, bytes]
            exact report
  · rw [rest.2]
    exact h.addressed

/-- A rollout that finds its participants adds an honest send to the record. -/
theorem Recorded.rolloutOnce (h : Recorded s reports) {input : RolloutInput}
    (resolves : Resolves s input.now) : Recorded (s.rolloutOnce input) reports := by
  have same := beginRollout_setup s.manager s.roster input
  have key := beginRollout_outboundKey s.manager s.roster input
  have addresses : ∀ p ∈ (beginRollout s.manager s.roster input).2,
      (p.rotating = false → s.manager.outboundKey = some p.key) ∧
        ∀ a ∈ p.addressed, OwnAddress a := by
    intro p hp
    cases beginRollout_spec s.manager s.roster input with
    | noKey _ _ none | nothing _ _ _ _ none =>
        rw [none] at hp
        cases hp
    | rotates hk due _ pending =>
        obtain rfl := Option.some.inj (pending.symm.trans hp)
        exact ⟨by simp, ownAddress_of_all fun t ht => resolves _ hk t ht (.inl due)⟩
    | shares hk kept _ _ pending =>
        obtain rfl := Option.some.inj (pending.symm.trans hp)
        refine ⟨fun _ => hk, ownAddress_of_all fun t ht => ?_⟩
        obtain ⟨present, unserved⟩ := mem_joined.mp ht
        exact resolves _ hk t present (.inr (anySameJoin_eq_false.mpr unserved))
  unfold System.rolloutOnce
  cases hb : beginRollout s.manager s.roster input with
  | mk m pending =>
      rw [hb] at same key addresses
      dsimp only at same key addresses
      have begun : Recorded { s with
          manager := m
          lastRead := s.manager.currentParticipants s.roster } reports :=
        h.of_same rfl rfl same key rfl rfl
      cases pending with
      | none => exact ⟨nofun, begun.retrying, begun.holders, begun.addressed⟩
      | some p =>
          obtain ⟨current, honest⟩ := addresses p rfl
          have keyed : p.rotating = false → ∀ k ∈ m.outboundKey,
              k.keyIndex = p.key.keyIndex ∧ k.key = p.key.key := by
            intro kept k hk
            obtain rfl := Option.some.inj ((current kept).symm.trans (key ▸ hk))
            exact ⟨rfl, rfl⟩
          dsimp only
          split
          · rw [← List.append_nil reports]
            exact begun.afterSend keyed (by simp)
          · rename_i send hsend
            refine ⟨fun q hq => ?_, begun.retrying, begun.holders, fun new listed => ?_⟩
            · obtain rfl : p = q := Option.some.inj hq
              exact keyed
            · obtain old | only := List.mem_append.mp listed
              · exact h.addressed new old
              · obtain rfl := List.mem_singleton.mp only
                unfold rolloutSend at hsend
                split_ifs at hsend
                obtain rfl := Option.some.inj hsend
                exact honest

theorem recorded_kept (reports : List Report) :
    KeptByRollouts (Recorded · reports) fun s input => Resolves s input.now :=
  ⟨fun _ _ h => h.of_same rfl rfl rfl rfl rfl rfl, fun _ _ _ resolves => resolves,
    fun h resolves => h.rolloutOnce resolves⟩

theorem Recorded.ensureKeyDistribution (h : Recorded s reports) (orderly : Orderly s)
    {input : LoopInput} (resolves : runsNow s = true → Resolves s input.first.now) :
    Recorded (s.ensureKeyDistribution input) reports := by
  refine (recorded_kept reports).ensureKeyDistribution h (fun managed free => resolves ?_)
    fun free requested => ?_
  · simp [runsNow, managed, free]
  · exact absurd ((orderly.unrequested free).symm.trans requested) (by simp)

theorem Recorded.onMembershipsUpdate (h : Recorded s reports) (orderly : Orderly s)
    {input : LoopInput}
    (resolves : (runsNow s && !signalsEagerly s) = true → Resolves s input.first.now) :
    Recorded (s.onMembershipsUpdate input) reports := by
  unfold System.onMembershipsUpdate
  split_ifs with unmanaged
  · exact h
  · split
    · exact h
    · rename_i key hkey
      split_ifs with unsignalled
      · cases installed : s.manager.signalHandler with
        | true =>
            simp only [signalKeyToApp, installed, if_true]
            exact h.of_same rfl rfl rfl rfl rfl rfl
        | false =>
            simp only [signalKeyToApp, installed, Bool.false_eq_true, if_false]
            refine h.ensureKeyDistribution orderly fun runs => resolves ?_
            simp [runs, signalsEagerly, installed]
      · refine h.ensureKeyDistribution orderly fun runs => resolves ?_
        simp [runs, signalsEagerly, hkey, not_not.mp unsignalled]

theorem Recorded.flushDueRotation (h : Recorded s reports) (orderly : Orderly s) {checkedAt : ℕ}
    {input : LoopInput}
    (resolves : flushRuns s checkedAt = true → Resolves s input.first.now) :
    Recorded (s.flushDueRotation checkedAt input) reports := by
  refine (recorded_kept reports).flushDueRotation h
    (fun due hdue late managed free => resolves ?_) fun free requested => ?_
  · simp [flushRuns, hdue, late, managed, free]
  · exact absurd ((orderly.unrequested free).symm.trans requested) (by simp)

theorem Recorded.retryUndeliveredKey (h : Recorded s reports) {memberId : String}
    (found : Unmistaken s (.retryUndeliveredKey memberId)) :
    Recorded (s.retryUndeliveredKey memberId) reports := by
  unfold System.retryUndeliveredKey beginRetry
  obtain none | ⟨owed, howed⟩ := Option.eq_none_or_eq_some (s.manager.undelivered memberId)
  · simp only [none]
    exact h
  · simp only [howed]
    obtain none | ⟨key, hkey⟩ := Option.eq_none_or_eq_some
      (s.manager.outboundKey.filter fun k => k.keyIndex == owed.keyIndex)
    · simp only [none]
      exact h.of_same rfl rfl (by simp) (by simp) rfl rfl
    · simp only [hkey]
      obtain ⟨stored, index⟩ := Option.filter_eq_some_iff.mp hkey
      obtain none | ⟨a, ha⟩ := Option.eq_none_or_eq_some (address s.roster owed.target)
      · simp only [none]
        exact h
      · simp only [ha]
        refine ⟨h.keyed, fun r pending => ?_, h.holders, fun send listed => ?_⟩
        · obtain old | new := List.mem_append.mp pending
          · exact h.retrying r old
          · obtain rfl := List.mem_singleton.mp new
            exact (address_spec ha).1
        · obtain old | new := List.mem_append.mp listed
          · exact h.addressed send old
          · obtain rfl := List.mem_singleton.mp new
            have own : OwnAddress a := ownAddress_of_found ha
              (found owed howed key stored (by simpa using index))
            simpa [retrySend] using own

theorem reportedSent_of_reached {deliveries : List ToDeviceDelivery} {t : ParticipantDeviceInfo}
    (h : reached deliveries t = true) :
    reportedSent deliveries ⟨t.userId, t.deviceId⟩ = true := by
  obtain ⟨d, found, sent⟩ := (Option.any_eq_true _ _).mp h
  have own := List.find?_some found
  simp only [Bool.and_eq_true, beq_iff_eq] at own
  refine List.any_eq_true.mpr ⟨d, List.mem_of_find?_eq_some found, ?_⟩
  simp [sent, ← own.1, ← own.2]

theorem mem_reportsOf {keyIndex : UInt8} {key : List UInt8} {addressed : List Addressed}
    {deliveries : List ToDeviceDelivery} {t : ParticipantDeviceInfo}
    (h : reached deliveries t = true)
    (asked : ∃ b ∈ addressed, b.recipient = ⟨t.userId, t.deviceId⟩) :
    ⟨keyIndex, key, t.userId, t.deviceId⟩ ∈ reportsOf keyIndex key addressed (.ok deliveries) := by
  obtain ⟨b, listed, own⟩ := asked
  have sent : reportedSent deliveries b.recipient = true := own ▸ reportedSent_of_reached h
  refine List.mem_map.mpr ⟨b, List.mem_filter.mpr ⟨listed, sent⟩, ?_⟩
  rw [own]

theorem Recorded.rolloutAnswered (h : Recorded s reports) {p : PendingRollout}
    {answer : SendAnswer} {next : RolloutInput} (hp : s.rollout = some (.sending p))
    (ok : Unmistaken s (.rolloutAnswered answer next)) :
    Recorded (s.afterSend p (servedBy p.addressed answer))
      (reports ++ reported s (.rolloutAnswered answer next)) := by
  have pending : atSend s = some p := by simp [atSend, hp]
  simp only [reported, pending, Option.map_some, Option.getD_some]
  refine h.afterSend (h.keyed p pending) fun x hx => ?_
  cases answer with
  | error e => cases hx
  | ok deliveries =>
      obtain ⟨target, reached⟩ := List.mem_filter.mp hx
      obtain ⟨a, listed, rfl⟩ := List.mem_map.mp target
      obtain ⟨asked, unmistakable⟩ := ok p pending a listed reached
      exact ⟨mem_reportsOf reached asked, unmistakable⟩

/-- The answer to a retry's send. -/
theorem Recorded.retryAnswered (h : Recorded s reports) {i : ℕ} {r : PendingRetry}
    {answer : SendAnswer} (hr : s.retries[i]? = some r)
    (ok : Unmistaken s (.retryAnswered i answer)) :
    Recorded { s with
        manager := (finishRetry s.manager r answer).1
        retries := s.retries.eraseIdx i }
      (reports ++ reported s (.retryAnswered i answer)) := by
  simp only [reported, hr, Option.map_some, Option.getD_some]
  have listed : r ∈ s.retries := List.mem_of_getElem? hr
  have rest : ∀ q ∈ s.retries.eraseIdx i, q.addressed.target = q.owed.target :=
    fun q hq => h.retrying q (List.mem_of_mem_eraseIdx hq)
  have kept : Recorded { s with retries := s.retries.eraseIdx i }
      (reports ++ reportsOf r.owed.keyIndex r.key.key [r.addressed] answer) :=
    ⟨h.keyed, rest, fun key hkey x holder => by
      obtain ⟨report, unmistakable⟩ := h.holders key hkey x holder
      exact ⟨List.mem_append_left _ report, unmistakable⟩, h.addressed⟩
  cases answer with
  | error e => exact kept
  | ok deliveries =>
      by_cases hs : served [r.addressed] deliveries = []
      · simp only [finishRetry, hs, if_true]
        exact kept
      · simp only [finishRetry, hs, if_false]
        have delivered : reached deliveries r.owed.target = true :=
          h.retrying r listed ▸ served_singleton hs
        have recorded : Recorded { s with
            manager := recordRetried s.manager r.owed
            retries := s.retries.eraseIdx i }
            (reports ++ reportsOf r.owed.keyIndex r.key.key [r.addressed] (.ok deliveries)) := by
          refine ⟨fun q hq rotates key hkey => ?_, rest, fun key hkey x holder => ?_, h.addressed⟩
          · obtain ⟨k, hk, rfl⟩ := Option.map_eq_some_iff.mp hkey
            have current := h.keyed q hq rotates k hk
            split_ifs <;> exact current
          · obtain ⟨k, hk, rfl⟩ := Option.map_eq_some_iff.mp hkey
            split_ifs at holder ⊢ with push
            · obtain old | new := List.mem_append.mp holder
              · exact kept.holders k hk x old
              · obtain rfl := List.mem_singleton.mp new
                obtain ⟨own, bytes, unmistakable⟩ := ok r hr k hk push.1 push.2 delivered
                refine ⟨List.mem_append_right _ ?_, unmistakable⟩
                rw [push.1, ← bytes]
                exact mem_reportsOf delivered ⟨r.addressed, List.mem_singleton_self _, own⟩
            · exact kept.holders k hk x holder
        exact recorded.of_same rfl rfl (by simp) (by simp) rfl rfl

theorem Resolves.of_same {t : System} {now : ℕ} (h : Resolves s now)
    (setup : t.manager.setup = s.manager.setup)
    (key : t.manager.outboundKey = s.manager.outboundKey) (roster : t.roster = s.roster) :
    Resolves t now := by
  unfold Resolves
  rw [EncryptionManager.config_of_setup setup,
    EncryptionManager.currentParticipants_of_setup setup, key, roster]
  exact h

theorem afterSend_tick (p : PendingRollout) (reachedAll : List ParticipantDeviceInfo)
    (clock : ℕ) : System.afterSend { s with clock := clock } p reachedAll =
      { s.afterSend p reachedAll with clock := clock } := by
  unfold System.afterSend
  dsimp only
  split <;> rfl

theorem Recorded.signalled (h : Recorded s reports) {key : OutboundEncryptionKey}
    {useAfter atMs : ℕ} {t : System}
    (manager : t.manager = recordSignalled s.manager key useAfter atMs)
    (sends : atSend t = atSend s) (retries : t.retries = s.retries) (roster : t.roster = s.roster)
    (sent : t.sent = s.sent) :
    Recorded t reports ∧ ∀ now, Resolves s now → Resolves t now := by
  have setup : t.manager.setup = s.manager.setup := by rw [manager, recordSignalled_setup]
  have same : t.manager.outboundKey = s.manager.outboundKey := by
    rw [manager, recordSignalled_outboundKey]
  exact ⟨h.of_same sends retries setup same roster sent,
    fun _ resolves => resolves.of_same setup same roster⟩

theorem Recorded.eagerSignalled (h : Recorded s reports) (orderly : Orderly s) {i atMs : ℕ}
    {key : OutboundEncryptionKey} {input : LoopInput}
    (resolves : runsNow s = true → Resolves s input.first.now) :
    Recorded (System.ensureKeyDistribution { s with
      manager := recordSignalled s.manager key 0 atMs
      eager := s.eager.eraseIdx i
      clock := input.next.mintedAt } input) reports := by
  generalize hu : ({ s with
    manager := recordSignalled s.manager key 0 atMs
    eager := s.eager.eraseIdx i
    clock := input.next.mintedAt } : System) = u
  have manager : u.manager = recordSignalled s.manager key 0 atMs := by rw [← hu]
  have same : flags u.manager = flags s.manager := by rw [manager, recordSignalled_flags]
  have config : u.manager.config = s.manager.config := by
    refine EncryptionManager.config_of_setup ?_
    rw [manager, recordSignalled_setup]
  have free : u.manager.keyDistributionInProgress = s.manager.keyDistributionInProgress :=
    congrArg Prod.fst same
  obtain ⟨recorded, still⟩ : Recorded u reports ∧ ∀ now, Resolves s now → Resolves u now := by
    subst hu
    exact h.signalled rfl rfl rfl rfl rfl
  refine recorded.ensureKeyDistribution (orderly.of_flags same (by rw [← hu])) fun runs => ?_
  simp only [runsNow, config, free] at runs
  exact still _ (resolves runs)

theorem Recorded.rolloutSignalled (h : Recorded s reports) {p : PendingRollout} {atMs : ℕ}
    {next : RolloutInput} (hp : s.rollout = some (.signalling p))
    (resolves : s.manager.needNewDistribution = true → Resolves s next.now) :
    Recorded (System.followUp { s with
      manager := recordSignalled s.manager p.key p.useAfterMs atMs
      rollout := none
      clock := next.mintedAt } next) reports := by
  have same := recordSignalled_flags s.manager p.key p.useAfterMs atMs
  have ended : atSend s = none := by simp [atSend, hp]
  obtain ⟨recorded, still⟩ := h.signalled (t := { s with
    manager := recordSignalled s.manager p.key p.useAfterMs atMs
    rollout := none
    clock := next.mintedAt }) rfl ended.symm rfl rfl rfl
  refine (recorded_kept reports).followUp recorded fun _ requested => still _ (resolves ?_)
  exact (congrArg Prod.snd same).symm.trans requested

theorem Recorded.answeredFollowUp (h : Recorded s reports) {p : PendingRollout}
    {answer : SendAnswer} {next : RolloutInput} (hp : s.rollout = some (.sending p))
    (ok : MemberIdsTell ⟨s, reports⟩ (.act (.rolloutAnswered answer next))) :
    Recorded ((System.afterSend { s with clock := next.mintedAt } p
        (servedBy p.addressed answer)).followUp next)
      (reports ++ reported s (.rolloutAnswered answer next)) := by
  have answered : Recorded { s.afterSend p (servedBy p.addressed answer) with
      clock := next.mintedAt } (reports ++ reported s (.rolloutAnswered answer next)) :=
    (h.rolloutAnswered hp ok.2).of_same rfl rfl rfl rfl rfl rfl
  rw [afterSend_tick]
  refine (recorded_kept _).followUp answered fun idle again => ?_
  have pending : atSend s = some p := by simp [atSend, hp]
  refine ok.1 (s.afterSend p (servedBy p.addressed answer), next.now) ?_
  simp only [begins, pending, Option.bind_some]
  exact if_pos (by simpa using ⟨idle, again⟩)

/-- A step of the distributions keeps the record. -/
theorem Recorded.step (h : Recorded s reports) (orderly : Orderly s) {t : System}
    {a : DistributionRuns.Action} (ok : MemberIdsTell ⟨s, reports⟩ (.act a))
    (hstep : DistributionRuns.step s a = some t) : Recorded t (reports ++ reported s a) := by
  have ticked (clock : ℕ) : Recorded { s with clock := clock } reports :=
    h.of_same rfl rfl rfl rfl rfl rfl
  cases a with
  | setRoster roster =>
      obtain rfl := Option.some.inj hstep
      rw [show reported s (.setRoster roster) = [] from rfl, List.append_nil]
      exact ⟨h.keyed, h.retrying, fun key hkey x holder =>
        ⟨(h.holders key hkey x holder).1, ok.2 key hkey x holder⟩, h.addressed⟩
  | onMembershipsUpdate input =>
      simp only [DistributionRuns.step, Option.ite_none_right_eq_some, Option.some.injEq] at hstep
      obtain ⟨-, rfl⟩ := hstep
      rw [show reported s (.onMembershipsUpdate input) = [] from rfl, List.append_nil]
      refine (ticked _).onMembershipsUpdate (orderly.tick _) fun runs => ?_
      exact ok.1 (s, input.first.now) (if_pos runs)
  | eagerSignalled i atMs input =>
      simp only [DistributionRuns.step] at hstep
      split at hstep
      · cases hstep
      · simp only [Option.ite_none_right_eq_some, Option.some.injEq] at hstep
        obtain ⟨-, rfl⟩ := hstep
        rw [show reported s (.eagerSignalled i atMs input) = [] from rfl, List.append_nil]
        exact h.eagerSignalled orderly fun runs => ok.1 (s, input.first.now) (if_pos runs)
  | flushDueRotation checkedAt input =>
      simp only [DistributionRuns.step, Option.ite_none_right_eq_some, Option.some.injEq] at hstep
      obtain ⟨-, rfl⟩ := hstep
      rw [show reported s (.flushDueRotation checkedAt input) = [] from rfl, List.append_nil]
      refine (ticked _).flushDueRotation (orderly.tick _) fun runs => ?_
      exact ok.1 (s, input.first.now) (if_pos runs)
  | rolloutAnswered answer next =>
      simp only [DistributionRuns.step] at hstep
      split at hstep
      · rename_i p hp
        simp only [Option.ite_none_right_eq_some, Option.some.injEq] at hstep
        obtain ⟨-, rfl⟩ := hstep
        exact h.answeredFollowUp hp ok
      · cases hstep
  | rolloutSignalled atMs next =>
      simp only [DistributionRuns.step] at hstep
      split at hstep
      · rename_i p hp
        simp only [Option.ite_none_right_eq_some, Option.some.injEq] at hstep
        obtain ⟨-, rfl⟩ := hstep
        rw [show reported s (.rolloutSignalled atMs next) = [] from rfl, List.append_nil]
        exact h.rolloutSignalled hp fun requested => ok.1 (s, next.now) (if_pos requested)
      · cases hstep
  | retryUndeliveredKey memberId =>
      obtain rfl := Option.some.inj hstep
      rw [show reported s (.retryUndeliveredKey memberId) = [] from rfl, List.append_nil]
      exact h.retryUndeliveredKey ok.2
  | retryAnswered i answer =>
      simp only [DistributionRuns.step] at hstep
      split at hstep
      · cases hstep
      · rename_i r hr
        obtain rfl := Option.some.inj hstep
        exact h.retryAnswered hr ok.2

end Steps

/-- What a run of one join keeps to. -/
structure Inv (h : History) : Prop where
  orderly : Orderly h.base
  recorded : Recorded h.base h.reports

theorem step_inv {h t : History} {a : Action} (inv : Inv h) (ok : MemberIdsTell h a)
    (hstep : h.step a = some t) : Inv t := by
  cases a with
  | act action =>
      obtain ⟨u, hu, rfl⟩ := Option.map_eq_some_iff.mp hstep
      exact ⟨step_orderly inv.orderly hu, inv.recorded.step inv.orderly ok hu⟩
  | forgetUndelivered memberId =>
      obtain rfl := Option.some.inj hstep
      exact ⟨inv.orderly.of_flags rfl rfl, inv.recorded.of_same rfl rfl rfl rfl rfl rfl⟩
  | leave =>
      obtain rfl := Option.some.inj hstep
      refine ⟨inv.orderly.of_flags rfl rfl, ⟨?_, inv.recorded.retrying, ?_, inv.recorded.addressed⟩⟩
      · intro p hp rotates key hkey
        cases hkey
      · intro key hkey
        cases hkey

theorem start_inv (setup : Setup) (roster : List JoinedMembership) (key : List UInt8)
    (now : ℕ) : Inv (History.start setup roster key now) := by
  refine ⟨start_orderly setup roster key now, ⟨?_, ?_, fun k hk x holder => ?_, ?_⟩⟩
  · simp [History.start, DistributionRuns.start, atSend]
  · simp [History.start, DistributionRuns.start]
  · simp only [History.start, DistributionRuns.start, EncryptionManager.join] at hk
    split_ifs at hk
    · obtain rfl := Option.some.inj hk
      cases holder
    · cases hk
  · simp [History.start, DistributionRuns.start]

/-- The delivery record is truthful all along every run of one join whose steps find, by
member id, only the memberships they mean. -/
theorem deliveries_truthful (setup : Setup) (roster : List JoinedMembership) (key : List UInt8)
    (now : ℕ) (actions : List Action)
    (tell : Admissible History.step MemberIdsTell (History.start setup roster key now) actions) :
    Always History.step Truthful (History.start setup roster key now) actions :=
  always_of_admissible (fun _ _ _ => step_inv) (fun _ inv => inv.recorded.truthful)
    (start_inv setup roster key now) tell

section Runs

def carol : JoinedMembership :=
  { callMembership "@carol:x" "C" "carol" "carol" with membershipTs := some 2 }

/-- Bob is served at once, carol on a retry. -/
def servedOnRetry : List Action :=
  [.act (.onMembershipsUpdate (inputAt 0)),
    .act (.rolloutAnswered (.ok [.sent ⟨"@bob:x", "B"⟩, .failed ⟨"@carol:x", "C"⟩ "offline"])
      (inputAt 0).next),
    .act (.retryUndeliveredKey "carol"),
    .act (.retryAnswered 0 (.ok [.sent ⟨"@carol:x", "C"⟩]))]

theorem truthful_with_carol :
    Always History.step Truthful (History.start alice [bob, carol] [1] 0) servedOnRetry :=
  deliveries_truthful alice [bob, carol] [1] 0 servedOnRetry (by decide)

/-- Another user states bob's member id and the start of his join. -/
def mallory : JoinedMembership :=
  { callMembership "@mallory:x" "M" "bob" "bob" with membershipTs := some 1 }

/-- Bob's key is addressed to mallory's device alone, and bob then counts as holding it. -/
theorem not_always_truthful :
    ¬ ∀ (setup : Setup) (roster : List JoinedMembership) (key : List UInt8) (now : ℕ)
      (actions : List Action),
        Always History.step Truthful (History.start setup roster key now) actions := by
  intro all
  exact absurd
    (all alice [mallory, bob] [1] 0 [.act (.onMembershipsUpdate (inputAt 0)),
      .act (.rolloutAnswered (.ok [.sent ⟨"@mallory:x", "M"⟩]) (inputAt 0).next)])
    (by decide)

/-- A copy that arrives after bob was served counts as holding a key never addressed to it. -/
example : ∃ h ∈ run History.step (History.start alice [bob] [1] 0)
    [.act (.onMembershipsUpdate (inputAt 0)),
      .act (.rolloutAnswered (.ok [.sent ⟨"@bob:x", "B"⟩]) (inputAt 0).next),
      .act (.setRoster [bob, mallory])],
    ∃ key ∈ h.base.manager.outboundKey,
      countsAsHolding h.base.manager key mallory = true ∧
        ¬ ReportedSentTo h.reports key mallory ∧
        ∀ send ∈ h.base.sent, ∀ a ∈ send.addressed, OwnAddress a := by decide

end Runs

end MatrixRtc.DeliveryRecords

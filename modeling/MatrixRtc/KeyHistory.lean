import MatrixRtc.SequentialRollouts

/-!
# No history for a joiner

A key is handed to a member only if it was minted at most the freshness before the
first rollout that saw the member's join. A rollout guarantees this by its own
decision; what is owed is kept within it from one rollout to the next. A retry
looks its recipient up by member id alone, so the guarantee needs the membership it
finds to be the join it is owed to.
-/
namespace MatrixRtc.KeyHistory
open HostAnswers MemberEvents EncryptionManagers KeyRollout StepRuns SequentialRollouts

/-- The participation was first seen at most the freshness after `minted`. -/
def SeenWithin (s : State) (minted : ℕ) (x : Participation) : Prop :=
  ∃ seen, s.firstSeen x = some seen ∧
    seen ≤ minted + max s.manager.config.keyRotationGracePeriodMs
      s.manager.config.delayBeforeUseMs

/-- Whoever is owed the key in place was first seen while it was fresh. -/
structure Recent (s : State) : Prop where
  seen : ∀ x at', s.firstSeen x = some at' → at' ≤ s.clock
  owed : ∀ id o, s.manager.undelivered id = some o →
    ∀ key, s.manager.outboundKey = some key →
      SeenWithin s key.creationTs o.target.participation

theorem see_of_mem {firstSeen : Participation → Option ℕ} {roster : List JoinedMembership}
    {now : ℕ} {m : JoinedMembership} (before : ∀ x at', firstSeen x = some at' → at' ≤ now)
    (h : m ∈ roster) :
    ∃ at', see firstSeen roster now (participationOf m) = some at' ∧ at' ≤ now := by
  have listed : participationOf m ∈ roster.map participationOf := List.mem_map_of_mem h
  cases hs : firstSeen (participationOf m) with
  | none => exact ⟨now, by simp [see, hs, listed], le_refl _⟩
  | some at' => exact ⟨at', by simp [see, hs], before _ _ hs⟩

theorem see_of_seen {firstSeen : Participation → Option ℕ} {roster : List JoinedMembership}
    {now at' : ℕ} {x : Participation} (h : firstSeen x = some at') :
    see firstSeen roster now x = some at' := by
  simp [see, h]

theorem see_le {firstSeen : Participation → Option ℕ} {roster : List JoinedMembership}
    {now at' : ℕ} {x : Participation} (before : ∀ x at', firstSeen x = some at' → at' ≤ now)
    (h : see firstSeen roster now x = some at') : at' ≤ now := by
  cases hs : firstSeen x with
  | none =>
      simp only [see, hs, Option.none_or] at h
      split_ifs at h
      exact le_of_eq (Option.some.inj h).symm
  | some b =>
      simp only [see, hs, Option.some_or, Option.some.injEq] at h
      exact h ▸ before _ _ hs

theorem rollout_recent {s : State} {roster : List JoinedMembership} {input : RolloutInput}
    {answer : SendAnswer} {signalledAt : ℕ} (inv : Recent s) (h₁ : s.clock ≤ input.now)
    (h₂ : input.now ≤ input.mintedAt) (h₃ : input.mintedAt ≤ signalledAt) :
    Recent
      { manager := rolloutOutboundKey s.manager roster input answer signalledAt
        clock := signalledAt
        firstSeen := see s.firstSeen roster input.now
        sent := s.sent ++ rolloutSends s.manager roster input } := by
  have before : ∀ x at', s.firstSeen x = some at' → at' ≤ input.now :=
    fun x at' h => (inv.seen x at' h).trans h₁
  have config := EncryptionManager.config_of_setup
    (rolloutOutboundKey_setup s.manager roster input answer signalledAt)
  -- a participant of this roster is seen by now, so it is recent for any key whose
  -- freshness has not ended before this rollout
  have now_recent : ∀ p ∈ s.manager.currentParticipants roster, ∀ minted,
      input.now ≤ minted + s.manager.config.freshnessMs →
      ∃ at', see s.firstSeen roster input.now p.participation = some at' ∧
        at' ≤ minted + s.manager.config.freshnessMs := by
    intro p hp minted hle
    obtain ⟨m, hm, same⟩ := EncryptionManager.mem_currentParticipants hp
    obtain ⟨at', hat, le⟩ := see_of_mem before hm
    exact ⟨at', same ▸ hat, le.trans hle⟩
  have kept : ∀ id o, s.manager.undelivered id = some o → ∀ key,
      s.manager.outboundKey = some key →
      ∃ at', see s.firstSeen roster input.now o.target.participation = some at' ∧
        at' ≤ key.creationTs + s.manager.config.freshnessMs := by
    intro id o ho key hk
    obtain ⟨at', hat, le⟩ := inv.owed id o ho key hk
    exact ⟨at', see_of_seen hat, le⟩
  refine ⟨fun x at' hx => (see_le before hx).trans (h₂.trans h₃), fun id o ho key hk => ?_⟩
  simp only [SeenWithin, config]
  cases rolloutOutboundKey_spec s.manager roster input answer signalledAt with
  | noKey h hkey => exact absurd (hkey.symm.trans hk) (by simp)
  | nothing h nobody hkey howed =>
      obtain rfl := Option.some.inj (hkey.symm.trans hk)
      rw [howed] at ho
      exact kept id o (retainOwed_some ho).1 _ h
  | rotates h reachedAll sub hkey howed =>
      obtain rfl := Option.some.inj (hkey.symm.trans hk)
      rw [howed] at ho
      rcases mem_recordOwed ho with ⟨none, -⟩ | ⟨target, -⟩
      · simp at none
      · exact now_recent _ target _ (h₂.trans (Nat.le_add_right _ _))
  | @shares current h fresh reachedAll sub hkey howed =>
      obtain rfl := Option.some.inj (hkey.symm.trans hk)
      rw [howed] at ho
      rcases mem_recordOwed ho with ⟨old, -⟩ | ⟨target, -⟩
      · exact kept id o (retainOwed_some old).1 current h
      · exact now_recent _ (mem_joined.mp target).1 _ fresh.le

theorem step_recent {s t : State} {op : Op} (inv : Recent s) (h : step s op = some t) :
    Recent t := by
  cases op with
  | rollout roster input answer signalledAt =>
      simp only [step, Option.ite_none_right_eq_some, Option.some.injEq] at h
      obtain ⟨⟨h₁, h₂, h₃⟩, rfl⟩ := h
      exact rollout_recent inv h₁ h₂ h₃
  | retry roster memberId answer =>
      cases h
      obtain ⟨setup, le, holders, same⟩ := retry_keeps
        (retryUndeliveredKey_spec s.manager roster memberId answer)
      refine ⟨inv.seen, fun id o ho key' hk' => ?_⟩
      obtain ⟨key, hk, rfl⟩ := Option.map_eq_some_iff.mp (same.symm.trans hk')
      obtain ⟨at', hat, bound⟩ := inv.owed id o (le id o ho) key hk
      refine ⟨at', hat, ?_⟩
      simp only [EncryptionManager.config_of_setup setup]
      exact bound

theorem start_recent (setup : Setup) (key : List UInt8) (now : ℕ) :
    Recent (start setup key now) := by
  refine ⟨by simp [start], fun id o ho => ?_⟩
  simp only [start, EncryptionManager.join] at ho
  split_ifs at ho
  · simp [EncryptionManager.new] at ho
  · simp [EncryptionManager.new] at ho

/-- A retry that sends addresses the join it is owed to: the first membership
under the owed member id began when the owed participation did. -/
def AddressesOwedJoin (s : State) : Op → Prop
  | .rollout .. => True
  | .retry roster memberId _ =>
      ∀ owed ∈ s.manager.undelivered memberId, ∀ key ∈ s.manager.outboundKey,
        key.keyIndex = owed.keyIndex → ∀ a ∈ address roster owed.target,
          a.membership.membershipTs = owed.target.membershipTs

instance (s : State) : (op : Op) → Decidable (AddressesOwedJoin s op)
  | .rollout .. => isTrue trivial
  | .retry _ memberId _ =>
      inferInstanceAs (Decidable (∀ owed ∈ s.manager.undelivered memberId, _))

theorem address_memberId {roster : List JoinedMembership} {target : ParticipantDeviceInfo}
    {a : Addressed} (h : address roster target = some a) :
    a.target = target ∧ a.membership.memberId = target.memberId := by
  have listed : a ∈ addressAll roster [target] := by simp [addressAll, h]
  obtain ⟨ht, -, hid⟩ := mem_addressAll listed
  rw [List.mem_singleton] at ht
  exact ⟨ht, ht ▸ hid⟩

/-- No history for a joiner: in every run whose retries address the join they are
owed to, each call of the host carries the key in place, minted at most the
freshness before the first rollout that saw the participation it is for, and the
one it is addressed to, in its roster. -/
theorem no_history_for_a_joiner (setup : Setup) (firstKey : List UInt8) (joinedAt : ℕ)
    (ops : List Op) (op : Op) (s t : State)
    (owed : Admissible step AddressesOwedJoin (start setup firstKey joinedAt) (ops ++ [op]))
    (reach : run step (start setup firstKey joinedAt) ops = some s)
    (next : step s op = some t) :
    ∃ sends, t.sent = s.sent ++ sends ∧ ∀ send ∈ sends,
      (∃ key, t.manager.outboundKey = some key ∧ Carries send key) ∧
      ∀ a ∈ send.addressed, SeenWithin t send.mintedAt a.target.participation ∧
        SeenWithin t send.mintedAt (participationOf a.membership) := by
  have inv : Recent s := run_invariant_of_step (fun _ _ _ => step_recent)
    (start_recent setup firstKey joinedAt) reach
  have ok : AddressesOwedJoin s op := (owed.append reach).2.1
  cases op with
  | rollout roster input answer signalledAt =>
      simp only [step, Option.ite_none_right_eq_some, Option.some.injEq] at next
      obtain ⟨⟨h₁, h₂, h₃⟩, rfl⟩ := next
      refine ⟨_, rfl, fun send hsend => ?_⟩
      obtain ⟨carried, fresh, addressed⟩ := rolloutSends_spec answer signalledAt hsend
      have config := EncryptionManager.config_of_setup
        (rolloutOutboundKey_setup s.manager roster input answer signalledAt)
      have before : ∀ x at', s.firstSeen x = some at' → at' ≤ input.now :=
        fun x at' h => (inv.seen x at' h).trans h₁
      have bound : input.now ≤ send.mintedAt + s.manager.config.freshnessMs := by
        rcases fresh with minted | fresh <;> omega
      refine ⟨carried, fun a ha => ?_⟩
      obtain ⟨target, membership⟩ := addressed a ha
      obtain ⟨m, hm, same⟩ := EncryptionManager.mem_currentParticipants target
      obtain ⟨at₁, hat₁, le₁⟩ := see_of_mem before hm
      obtain ⟨at₂, hat₂, le₂⟩ := see_of_mem before membership
      refine ⟨⟨at₁, same ▸ hat₁, ?_⟩, at₂, hat₂, ?_⟩
      · simp only [config]
        exact le₁.trans bound
      · simp only [config]
        exact le₂.trans bound
  | retry roster memberId answer =>
      cases next
      refine ⟨_, rfl, fun send hsend => ?_⟩
      obtain ⟨owed, key, a, howed, hk, idx, haddr, carried, single⟩ := retrySends_spec hsend
      obtain ⟨setup, -, holders, same⟩ := retry_keeps
        (retryUndeliveredKey_spec s.manager roster memberId answer)
      obtain ⟨ht, hid⟩ := address_memberId haddr
      have join : participationOf a.membership = owed.target.participation := by
        simp only [participationOf, ParticipantDeviceInfo.participation, hid,
          ok owed howed key hk idx a haddr]
      obtain ⟨at', hat, bound⟩ := inv.owed memberId owed howed key hk
      rw [← EncryptionManager.config_of_setup setup, ← carried.2.2] at bound
      refine ⟨⟨{ key with sharedWith := holders key }, by simp [same, hk], carried⟩, ?_⟩
      rw [single]
      rintro b hb
      rw [List.mem_singleton] at hb
      subst hb
      exact ⟨⟨at', ht ▸ hat, bound⟩, at', join ▸ hat, bound⟩

def bobRetried (membership : JoinedMembership) : Op :=
  .retry [membership] "bob" (.ok [.sent ⟨"@bob:x", "B"⟩])

theorem no_history_for_a_joiner_bob :
    ∃ s ∈ run step (start alice [1] 0) [bobMissed], ∃ t ∈ step s (bobRetried bob),
      ∃ sends, t.sent = s.sent ++ sends ∧ ∀ send ∈ sends,
        (∃ key, t.manager.outboundKey = some key ∧ Carries send key) ∧
        ∀ a ∈ send.addressed, SeenWithin t send.mintedAt a.target.participation ∧
          SeenWithin t send.mintedAt (participationOf a.membership) := by
  have reached : ∃ s ∈ run step (start alice [1] 0) [bobMissed],
      (step s (bobRetried bob)).isSome = true := by decide
  obtain ⟨s, reach, more⟩ := reached
  obtain ⟨t, next⟩ := Option.isSome_iff_exists.mp more
  exact ⟨s, reach, t, next, no_history_for_a_joiner alice [1] 0 [bobMissed] (bobRetried bob) s t
    (by decide) reach next⟩

/-- Bob leaves and rejoins under his member id before the retry, which hands the
old key to the new participation; the rollout that first sees it runs later. -/
def bobRejoined : List Op :=
  [bobMissed, bobRetried { bob with membershipTs := some 2 },
    .rollout [{ bob with membershipTs := some 2 }] ⟨20000, 20000, [2]⟩
      (.ok [.sent ⟨"@bob:x", "B"⟩]) 20000]

theorem rejoined_member_gets_history :
    ∃ s ∈ run step (start alice [1] 0) bobRejoined, ∃ send ∈ s.sent, ∃ a ∈ send.addressed,
      ∃ seen ∈ s.firstSeen (participationOf a.membership),
        send.mintedAt + max s.manager.config.keyRotationGracePeriodMs
          s.manager.config.delayBeforeUseMs < seen := by
  decide

end MatrixRtc.KeyHistory

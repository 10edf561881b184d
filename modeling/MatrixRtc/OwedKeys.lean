import MatrixRtc.SequentialRollouts

/-!
# Nobody left out

After a rollout every participant of its roster either holds the key in place or
is owed it. What is held is recorded per join and what is owed per member id, so
this is so exactly when the roster does not list one member id under two joins.
-/
namespace MatrixRtc.OwedKeys
open HostAnswers MemberEvents EncryptionManagers KeyRollout StepRuns SequentialRollouts

/-- The participation is recorded as holding the key. -/
def Holds (key : OutboundEncryptionKey) (p : ParticipantDeviceInfo) : Prop :=
  ∃ h ∈ key.sharedWith, h.participation = p.participation

/-- The participation is owed the key, under its member id. -/
def IsOwed (m : EncryptionManager) (key : OutboundEncryptionKey) (p : ParticipantDeviceInfo) :
    Prop :=
  ∃ o, m.undelivered p.memberId = some o ∧ o.target.participation = p.participation ∧
    o.keyIndex = key.keyIndex

instance (key : OutboundEncryptionKey) (p : ParticipantDeviceInfo) : Decidable (Holds key p) :=
  inferInstanceAs (Decidable (∃ h ∈ key.sharedWith, h.participation = p.participation))

instance (m : EncryptionManager) (key : OutboundEncryptionKey) (p : ParticipantDeviceInfo) :
    Decidable (IsOwed m key p) :=
  inferInstanceAs (Decidable (∃ o ∈ m.undelivered p.memberId,
    o.target.participation = p.participation ∧ o.keyIndex = key.keyIndex))

/-- Every participant holds the key in place or is owed it, never both, and nobody
else is owed anything. -/
structure Accounted (m : EncryptionManager) (participants : List ParticipantDeviceInfo) :
    Prop where
  someone : ∀ key, m.outboundKey = some key → ∀ p ∈ participants, Holds key p ∨ IsOwed m key p
  notBoth : ∀ key, m.outboundKey = some key → ∀ p ∈ participants,
    ¬ (Holds key p ∧ IsOwed m key p)
  noneAbsent : ∀ id o, m.undelivered id = some o →
    ∃ p ∈ participants, p.participation = o.target.participation

/-- The participation owed under `memberId` now holds the key, and nothing else
of the key or of what is owed has changed. -/
def Moved (m m' : EncryptionManager) (memberId : String) : Prop :=
  ∃ owed key, m.undelivered memberId = some owed ∧ m.outboundKey = some key ∧
    ¬ Holds key owed.target ∧
    m'.undelivered = Function.update m.undelivered memberId none ∧
    m'.outboundKey = some { key with sharedWith := key.sharedWith ++ [owed.target] }

/-- What is owed is the key in place, to participations that do not hold it. -/
def Owes (m : EncryptionManager) : Prop :=
  ∃ key, m.outboundKey = some key ∧ ∀ id o, m.undelivered id = some o →
    o.target.memberId = id ∧ o.keyIndex = key.keyIndex ∧ ¬ Holds key o.target

theorem anySameJoin_iff_holds {key : OutboundEncryptionKey} {p : ParticipantDeviceInfo} :
    anySameJoin key.sharedWith p = true ↔ Holds key p :=
  anySameJoin_iff

theorem anySameJoin_congr {ps : List ParticipantDeviceInfo} {p q : ParticipantDeviceInfo}
    (h : p.participation = q.participation) : anySameJoin ps p = anySameJoin ps q := by
  rw [Bool.eq_iff_iff, anySameJoin_iff, anySameJoin_iff, h]

theorem anySameJoin_addHolders (holders more : List ParticipantDeviceInfo)
    (p : ParticipantDeviceInfo) :
    anySameJoin (addHolders holders more) p =
      (anySameJoin holders p || anySameJoin more p) := by
  induction more generalizing holders with
  | nil => simp [addHolders, anySameJoin]
  | cons q more ih =>
      rw [addHolders, ih]
      split_ifs with known
      · by_cases same : q.participation = p.participation
        · have : anySameJoin holders p = true := anySameJoin_congr same ▸ known
          simp [this]
        · have : q.sameJoin p = false := by
            rw [← Bool.not_eq_true, ParticipantDeviceInfo.sameJoin_iff]
            exact same
          simp [anySameJoin, this]
      · simp [anySameJoin, Bool.or_assoc]

theorem joined_of_not_holds {key : OutboundEncryptionKey} {p : ParticipantDeviceInfo}
    {participants : List ParticipantDeviceInfo} (hp : p ∈ participants) (h : ¬ Holds key p) :
    p ∈ joined key participants :=
  mem_joined.mpr ⟨hp, fun q hq same => h ⟨q, hq, same⟩⟩

theorem not_holds_of_joined {key : OutboundEncryptionKey} {p : ParticipantDeviceInfo}
    {participants : List ParticipantDeviceInfo} (h : p ∈ joined key participants) :
    ¬ Holds key p := by
  rintro ⟨q, hq, same⟩
  exact (mem_joined.mp h).2 q hq same

theorem Holds.congr {key : OutboundEncryptionKey} {p q : ParticipantDeviceInfo}
    (h : Holds key p) (same : p.participation = q.participation) : Holds key q := by
  obtain ⟨r, hr, hp⟩ := h
  exact ⟨r, hr, hp.trans same⟩

/-- Nobody who stays owed through a re-share without being one of its targets: an
owed participation that is present does not hold the key, so it is a target. -/
theorem retained_is_target {m : EncryptionManager} {key : OutboundEncryptionKey}
    {participants : List ParticipantDeviceInfo} {id : String} {o : Undelivered}
    (owes : ∀ id o, m.undelivered id = some o →
      o.target.memberId = id ∧ o.keyIndex = key.keyIndex ∧ ¬ Holds key o.target)
    (h : retainOwed m.undelivered participants id = some o) :
    ∃ p ∈ joined key participants, p.memberId = id ∧ p.participation = o.target.participation := by
  obtain ⟨ho, present⟩ := retainOwed_some h
  obtain ⟨hid, -, free⟩ := owes id o ho
  obtain ⟨p, hp, same⟩ := anySameJoin_iff.mp present
  refine ⟨p, joined_of_not_holds hp fun held => free (held.congr same), ?_, same⟩
  exact (congrArg Participation.memberId same).trans hid

theorem rollout_owes {m m' : EncryptionManager} {participants : List ParticipantDeviceInfo}
    {input : RolloutInput} {answer : SendAnswer} (owes : Owes m)
    (h : Rolls m participants input answer m') : Owes m' := by
  obtain ⟨key, hk, owes⟩ := owes
  cases h with
  | noKey h => exact absurd (h.symm.trans hk) (by simp)
  | nothing h nobody hkey howed =>
      obtain rfl := Option.some.inj (h.symm.trans hk)
      refine ⟨_, hkey, fun id o ho => ?_⟩
      rw [howed] at ho
      exact owes id o (retainOwed_some ho).1
  | rotates h reachedAll sub hkey howed =>
      refine ⟨_, hkey, fun id o ho => ?_⟩
      rw [howed] at ho
      rcases mem_recordOwed ho with ⟨none, -⟩ | ⟨-, hid, idx, missed⟩
      · simp at none
      · refine ⟨hid, idx, fun held => ?_⟩
        rw [anySameJoin_iff.mpr held] at missed
        exact absurd missed (by simp)
  | shares h fresh reachedAll sub hkey howed =>
      obtain rfl := Option.some.inj (h.symm.trans hk)
      refine ⟨_, hkey, fun id o ho => ?_⟩
      rw [howed] at ho
      rcases mem_recordOwed ho with ⟨old, untouched⟩ | ⟨target, hid, idx, missed⟩
      · obtain ⟨p, hp, hid, -⟩ := retained_is_target owes old
        exact absurd hid (untouched p hp)
      · refine ⟨hid, idx, fun held => ?_⟩
        have free := not_holds_of_joined target
        rw [← anySameJoin_iff_holds] at held free
        simp only [anySameJoin_addHolders, missed, Bool.or_false] at held
        exact free held

/-- Participants that share a member id are the same join. -/
def OneJoinPerMember (participants : List ParticipantDeviceInfo) : Prop :=
  ∀ p ∈ participants, ∀ q ∈ participants, p.memberId = q.memberId →
    p.participation = q.participation

instance (participants : List ParticipantDeviceInfo) : Decidable (OneJoinPerMember participants) :=
  inferInstanceAs (Decidable (∀ p ∈ participants, ∀ q ∈ participants, _ → _))

/-- The targets of a rollout after it: reached and not owed, or missed and owed. -/
theorem recordOwed_target (undelivered : String → Option Undelivered) (keyIndex : UInt8)
    (reachedAll : List ParticipantDeviceInfo) {targets : List ParticipantDeviceInfo}
    {p : ParticipantDeviceInfo}
    (unique : OneJoinPerMember targets) (hp : p ∈ targets) :
    (anySameJoin reachedAll p = true ∧
        recordOwed undelivered keyIndex reachedAll targets p.memberId = none) ∨
      (anySameJoin reachedAll p = false ∧ ∃ q ∈ targets, q.participation = p.participation ∧
        recordOwed undelivered keyIndex reachedAll targets p.memberId = some ⟨q, keyIndex⟩) := by
  rcases recordOwed_cases undelivered keyIndex reachedAll targets p.memberId with
    ⟨absent, -⟩ | ⟨q, hq, hid, same⟩
  · exact absurd rfl (absent p hp)
  · have join := unique q hq p hp hid
    rw [anySameJoin_congr join] at same
    cases hr : anySameJoin reachedAll p with
    | true => exact Or.inl ⟨rfl, by simpa [hr] using same⟩
    | false => exact Or.inr ⟨rfl, q, hq, join, by simpa [hr] using same⟩

theorem OneJoinPerMember.joined {participants : List ParticipantDeviceInfo}
    (unique : OneJoinPerMember participants) (key : OutboundEncryptionKey) :
    OneJoinPerMember (joined key participants) :=
  fun p hp q hq => unique p (mem_joined.mp hp).1 q (mem_joined.mp hq).1

theorem rollout_accounted {m m' : EncryptionManager} {participants : List ParticipantDeviceInfo}
    {input : RolloutInput} {answer : SendAnswer} (owes : Owes m)
    (unique : OneJoinPerMember participants) (h : Rolls m participants input answer m') :
    Accounted m' participants := by
  obtain ⟨key, hk, owes⟩ := owes
  cases h with
  | noKey h => exact absurd (h.symm.trans hk) (by simp)
  | nothing h nobody hkey howed =>
      obtain rfl := Option.some.inj (hk.symm.trans h)
      have held : ∀ p ∈ participants, Holds key p := by
        intro p hp
        by_contra free
        have waiting := joined_of_not_holds hp free
        simp [nobody] at waiting
      refine ⟨fun k hk' p hp => ?_, fun k hk' p hp => ?_, fun id o ho => ?_⟩
      · obtain rfl := Option.some.inj (hkey.symm.trans hk')
        exact Or.inl (held p hp)
      · obtain rfl := Option.some.inj (hkey.symm.trans hk')
        rintro ⟨holds, o, ho, same, -⟩
        rw [howed] at ho
        exact (owes _ o (retainOwed_some ho).1).2.2 (holds.congr same.symm)
      · rw [howed] at ho
        exact anySameJoin_iff.mp (retainOwed_some ho).2
  | rotates h reachedAll sub hkey howed =>
      refine ⟨fun k hk' p hp => ?_, fun k hk' p hp => ?_, fun id o ho => ?_⟩
      · obtain rfl := Option.some.inj (hkey.symm.trans hk')
        rcases recordOwed_target (fun _ => none) m.nextKeyIndex reachedAll unique hp with
          ⟨hit, -⟩ | ⟨-, q, -, same, ho⟩
        · exact Or.inl (anySameJoin_iff.mp hit)
        · exact Or.inr ⟨_, by rw [howed, ho], same, rfl⟩
      · obtain rfl := Option.some.inj (hkey.symm.trans hk')
        rintro ⟨holds, o, ho, same, -⟩
        rw [howed] at ho
        rcases mem_recordOwed ho with ⟨none, -⟩ | ⟨-, -, -, missed⟩
        · simp at none
        · rw [anySameJoin_congr same, anySameJoin_iff.mpr holds] at missed
          exact absurd missed (by simp)
      · rw [howed] at ho
        rcases mem_recordOwed ho with ⟨none, -⟩ | ⟨target, -⟩
        · simp at none
        · exact ⟨_, target, rfl⟩
  | shares h fresh reachedAll sub hkey howed =>
      obtain rfl := Option.some.inj (hk.symm.trans h)
      refine ⟨fun k hk' p hp => ?_, fun k hk' p hp => ?_, fun id o ho => ?_⟩
      · obtain rfl := Option.some.inj (hkey.symm.trans hk')
        by_cases held : Holds key p
        · refine Or.inl (anySameJoin_iff_holds.mp ?_)
          simp [anySameJoin_addHolders, anySameJoin_iff_holds.mpr held]
        · rcases recordOwed_target (retainOwed m.undelivered participants)
            key.keyIndex reachedAll (unique.joined key)
            (joined_of_not_holds hp held) with ⟨hit, -⟩ | ⟨-, q, -, same, ho⟩
          · refine Or.inl (anySameJoin_iff_holds.mp ?_)
            simp [anySameJoin_addHolders, hit]
          · exact Or.inr ⟨_, by rw [howed, ho], same, rfl⟩
      · obtain rfl := Option.some.inj (hkey.symm.trans hk')
        rintro ⟨holds, o, ho, same, -⟩
        rw [← anySameJoin_iff_holds] at holds
        simp only [anySameJoin_addHolders, Bool.or_eq_true] at holds
        rw [howed] at ho
        rcases mem_recordOwed ho with ⟨old, untouched⟩ | ⟨target, -, -, missed⟩
        · obtain ⟨q, hq, hid, -⟩ := retained_is_target owes old
          exact untouched q hq hid
        · rw [anySameJoin_congr same] at missed
          rcases holds with held | hit
          · exact not_holds_of_joined target ((anySameJoin_iff_holds.mp held).congr same.symm)
          · exact absurd (missed.symm.trans hit) (by simp)
      · rw [howed] at ho
        rcases mem_recordOwed ho with ⟨old, -⟩ | ⟨target, -⟩
        · exact anySameJoin_iff.mp (retainOwed_some old).2
        · exact ⟨_, (mem_joined.mp target).1, rfl⟩

/-- A delivered retry moves the participation it was for, and no other. -/
theorem retry_moved {m m' : EncryptionManager} {memberId : String} (owes : Owes m)
    (h : Retries m memberId m' (.ok .delivered)) : Moved m m' memberId := by
  obtain ⟨key, hk, owes⟩ := owes
  cases h with
  | unchanged same missed => exact absurd rfl missed
  | rotated howed gone dropped missed => exact absurd rfl missed
  | @delivered owed key' howed hk' current moved hit =>
      obtain rfl := Option.some.inj (hk.symm.trans hk')
      obtain ⟨hid, -, free⟩ := owes memberId owed howed
      subst hid
      have fresh : anySameJoin key.sharedWith owed.target = false := by
        rw [← Bool.not_eq_true, anySameJoin_iff_holds]
        exact free
      refine ⟨owed, key, howed, hk, free, ?_, ?_⟩
      · rw [moved, dropOwed, if_pos (by simpa [recordRetried] using howed)]
        rfl
      · simp [moved, recordRetried, hk, current, fresh]

theorem retry_unchanged {m m' : EncryptionManager} {memberId : String}
    {result : Except CommandError KeyRetry} (owes : Owes m)
    (h : Retries m memberId m' result) (missed : result ≠ .ok .delivered) : m' = m := by
  obtain ⟨key, hk, owes⟩ := owes
  cases h with
  | unchanged same _ => exact same
  | rotated howed gone _ _ => exact absurd (owes _ _ howed).2.1.symm (gone key hk)
  | delivered _ _ _ _ hit => exact absurd hit missed

theorem Moved.owes {m m' : EncryptionManager} {memberId : String} (owes : Owes m)
    (moved : Moved m m' memberId) : Owes m' := by
  obtain ⟨key, hk, owes⟩ := owes
  obtain ⟨owed, key', howed, hk', -, hu, hkey⟩ := moved
  obtain rfl := Option.some.inj (hk.symm.trans hk')
  refine ⟨_, hkey, fun id o ho => ?_⟩
  rw [hu] at ho
  by_cases hid : id = memberId
  · subst hid
    simp at ho
  · rw [Function.update_of_ne hid] at ho
    obtain ⟨key_id, idx, free⟩ := owes id o ho
    refine ⟨key_id, idx, ?_⟩
    rintro ⟨h, hh, same⟩
    rcases List.mem_append.mp hh with hh | hh
    · exact free ⟨h, hh, same⟩
    · rw [List.mem_singleton] at hh
      subst hh
      have : owed.target.memberId = o.target.memberId := congrArg Participation.memberId same
      rw [(owes memberId owed howed).1, key_id] at this
      exact hid this.symm

theorem Moved.accounted {m m' : EncryptionManager} {memberId : String}
    {participants : List ParticipantDeviceInfo} (owes : Owes m)
    (before : Accounted m participants) (moved : Moved m m' memberId) :
    Accounted m' participants := by
  obtain ⟨_, -, owes⟩ := owes
  obtain ⟨owed, key, howed, hk, -, hu, hkey⟩ := moved
  have hid := (owes memberId owed howed).1
  have other : ∀ id o, m'.undelivered id = some o → id ≠ memberId ∧ m.undelivered id = some o := by
    intro id o ho
    rw [hu] at ho
    by_cases same : id = memberId
    · subst same
      simp at ho
    · exact ⟨same, by rwa [Function.update_of_ne same] at ho⟩
  refine ⟨fun k hk' p hp => ?_, fun k hk' p hp => ?_, fun id o ho => ?_⟩
  · obtain rfl := Option.some.inj (hkey.symm.trans hk')
    rcases before.someone key hk p hp with ⟨h, hh, same⟩ | ⟨o, ho, same, idx⟩
    · exact Or.inl ⟨h, List.mem_append_left _ hh, same⟩
    · by_cases this : p.memberId = memberId
      · rw [this, howed] at ho
        cases ho
        exact Or.inl ⟨owed.target, by simp, same⟩
      · exact Or.inr ⟨o, by rw [hu, Function.update_of_ne this, ho], same, idx⟩
  · obtain rfl := Option.some.inj (hkey.symm.trans hk')
    rintro ⟨⟨h, hh, same⟩, o, ho, join, idx⟩
    obtain ⟨ne, ho⟩ := other _ o ho
    rcases List.mem_append.mp hh with hh | hh
    · exact before.notBoth key hk p hp ⟨⟨h, hh, same⟩, o, ho, join, idx⟩
    · rw [List.mem_singleton] at hh
      subst hh
      exact ne ((congrArg Participation.memberId same).symm.trans hid)
  · exact before.noneAbsent id o (other id o ho).2

/-- One retry, as the upkeep calls it. -/
structure RetryCall where
  roster : List JoinedMembership
  memberId : String
  answer : SendAnswer

def RetryCall.op (call : RetryCall) : Op :=
  .retry call.roster call.memberId call.answer

theorem retry_owes {m : EncryptionManager} (owes : Owes m) (call : RetryCall) :
    Owes (retryUndeliveredKey m call.roster call.memberId call.answer).1 := by
  have spec := retryUndeliveredKey_spec m call.roster call.memberId call.answer
  by_cases hit : (retryUndeliveredKey m call.roster call.memberId call.answer).2 = .ok .delivered
  · rw [hit] at spec
    exact (retry_moved owes spec).owes owes
  · rw [retry_unchanged owes spec hit]
    exact owes

theorem retry_accounted {m : EncryptionManager} {participants : List ParticipantDeviceInfo}
    (owes : Owes m) (before : Accounted m participants) (call : RetryCall) :
    Accounted (retryUndeliveredKey m call.roster call.memberId call.answer).1 participants := by
  have spec := retryUndeliveredKey_spec m call.roster call.memberId call.answer
  by_cases hit : (retryUndeliveredKey m call.roster call.memberId call.answer).2 = .ok .delivered
  · rw [hit] at spec
    exact (retry_moved owes spec).accounted owes before
  · rw [retry_unchanged owes spec hit]
    exact before

theorem retries_accounted {t u : State} {participants : List ParticipantDeviceInfo}
    {calls : List RetryCall} (owes : Owes t.manager) (before : Accounted t.manager participants)
    (h : run step t (calls.map RetryCall.op) = some u) :
    Owes u.manager ∧ Accounted u.manager participants := by
  induction calls generalizing t with
  | nil =>
      cases h
      exact ⟨owes, before⟩
  | cons call calls ih =>
      obtain ⟨v, hv, rest⟩ := run_cons.mp h
      cases hv
      exact ih (retry_owes owes call) (retry_accounted owes before call) rest

theorem step_owes {s t : State} {op : Op} (owes : Owes s.manager) (h : step s op = some t) :
    Owes t.manager := by
  cases op with
  | rollout roster input answer signalledAt =>
      simp only [step, Option.ite_none_right_eq_some, Option.some.injEq] at h
      obtain ⟨-, rfl⟩ := h
      exact rollout_owes owes (rolloutOutboundKey_spec _ _ _ _ _)
  | retry roster memberId answer =>
      cases h
      exact retry_owes owes ⟨roster, memberId, answer⟩

theorem step_setup {s t : State} {op : Op} (h : step s op = some t) :
    t.manager.setup = s.manager.setup := by
  cases op with
  | rollout roster input answer signalledAt =>
      simp only [step, Option.ite_none_right_eq_some, Option.some.injEq] at h
      obtain ⟨-, rfl⟩ := h
      exact rolloutOutboundKey_setup _ _ _ _ _
  | retry roster memberId answer =>
      cases h
      exact (retry_keeps (retryUndeliveredKey_spec s.manager roster memberId answer)).1

theorem run_setup {s t : State} {ops : List Op} (h : run step s ops = some t) :
    t.manager.setup = s.manager.setup :=
  run_invariant_of_step (I := fun u : State => u.manager.setup = s.manager.setup)
    (fun _ _ _ same next => (step_setup next).trans same) rfl h

theorem start_owes {setup : Setup} (managed : setup.config.manageMediaKeys = true)
    (key : List UInt8) (now : ℕ) : Owes (start setup key now).manager := by
  simp [Owes, start, EncryptionManager.join, EncryptionManager.new, managed]

theorem start_setup (setup : Setup) (key : List UInt8) (now : ℕ) :
    (start setup key now).manager.setup = (EncryptionManager.new setup).setup := by
  simp only [start, EncryptionManager.join]
  split_ifs <;> rfl

/-- With a host that delivers nothing, a rollout right after the join leaves the
key shared with nobody. -/
theorem failed_rollout_shares_nothing {m : EncryptionManager}
    {participants : List ParticipantDeviceInfo} {input : RolloutInput} {e : CommandError}
    {m' : EncryptionManager} {key key' : OutboundEncryptionKey}
    (h : Rolls m participants input (.error e) m') (hk : m.outboundKey = some key)
    (alone : key.sharedWith = []) (hk' : m'.outboundKey = some key') : key'.sharedWith = [] := by
  have nobody : ∀ {targets reachedAll : List ParticipantDeviceInfo},
      (∀ t ∈ reachedAll, t ∈ targets ∧ Reported (.error e) t) → reachedAll = [] := by
    intro targets reachedAll sub
    refine List.eq_nil_iff_forall_not_mem.mpr fun t ht => ?_
    obtain ⟨-, deliveries, ok, -⟩ := sub t ht
    simp at ok
  cases h with
  | noKey h => exact absurd (h.symm.trans hk) (by simp)
  | nothing h _ hkey _ =>
      obtain rfl := Option.some.inj (h.symm.trans hk)
      obtain rfl := Option.some.inj (hkey.symm.trans hk')
      exact alone
  | rotates h reachedAll sub hkey _ =>
      obtain rfl := Option.some.inj (hkey.symm.trans hk')
      exact nobody sub
  | shares h _ reachedAll sub hkey _ =>
      obtain rfl := Option.some.inj (h.symm.trans hk)
      obtain rfl := Option.some.inj (hkey.symm.trans hk')
      simp [nobody sub, addHolders, alone]

/-- Nobody is left out, exactly for the rosters in which participants that share a
member id are the same join: after every run of rollouts and retries, a rollout on
the roster and any retries after it, every participant holds the key or is owed it,
never both, nobody else is owed it, and a retry that delivers moves exactly the
participation it was for. -/
theorem nobody_left_out_iff (setup : Setup) (managed : setup.config.manageMediaKeys = true)
    (roster : List JoinedMembership) :
    (∀ firstKey joinedAt ops s input answer signalledAt t,
      run step (start setup firstKey joinedAt) ops = some s →
      step s (.rollout roster input answer signalledAt) = some t →
      ∀ (calls : List RetryCall) u, run step t (calls.map RetryCall.op) = some u →
        Accounted u.manager (u.manager.currentParticipants roster) ∧
        ∀ (call : RetryCall) v,
          retryUndeliveredKey u.manager call.roster call.memberId call.answer =
            (v, .ok .delivered) → Moved u.manager v call.memberId) ↔
      OneJoinPerMember ((EncryptionManager.new setup).currentParticipants roster) := by
  constructor
  · intro all p hp q hq hid
    -- a host that fails the first rollout: nobody holds the key, and one member id
    -- is owed it by one participation only
    let input : RolloutInput := ⟨0, 0, []⟩
    let t : State :=
      { manager := rolloutOutboundKey (start setup [] 0).manager roster input
          (.error .invalidRoomId) 0
        clock := 0
        firstSeen := see (start setup [] 0).firstSeen roster 0
        sent := (start setup [] 0).sent ++ rolloutSends (start setup [] 0).manager roster input }
    have next : step (start setup [] 0) (.rollout roster input (.error .invalidRoomId) 0) =
        some t := by
      simp [step, start, input, t]
    obtain ⟨accounted, -⟩ := all [] 0 [] _ _ _ _ _ rfl next [] _ rfl
    have same : t.manager.currentParticipants roster =
        (EncryptionManager.new setup).currentParticipants roster :=
      EncryptionManager.currentParticipants_of_setup
        ((step_setup next).trans (start_setup setup [] 0)) roster
    rw [same] at accounted
    obtain ⟨key, hk, -⟩ := start_owes managed [] 0
    obtain ⟨key', hk', -⟩ := step_owes (start_owes managed [] 0) next
    have alone : key.sharedWith = [] := by
      simp only [start, EncryptionManager.join, EncryptionManager.new, managed, if_true,
        Option.some.injEq] at hk
      rw [← hk]
    have nobody := failed_rollout_shares_nothing
      (rolloutOutboundKey_spec (start setup [] 0).manager roster input (.error .invalidRoomId) 0)
      hk alone hk'
    have owed : ∀ r ∈ (EncryptionManager.new setup).currentParticipants roster,
        ∃ o, t.manager.undelivered r.memberId = some o ∧
          o.target.participation = r.participation := by
      intro r hr
      rcases accounted.someone key' hk' r hr with ⟨h, hh, -⟩ | ⟨o, ho, join, -⟩
      · simp [nobody] at hh
      · exact ⟨o, ho, join⟩
    obtain ⟨o, ho, hop⟩ := owed p hp
    obtain ⟨o', ho', hoq⟩ := owed q hq
    rw [hid, ho'] at ho
    cases ho
    exact hop.symm.trans hoq
  · intro unique firstKey joinedAt ops s input answer signalledAt t reach next calls u retried
    have owes : Owes s.manager :=
      run_invariant_of_step (I := fun s : State => Owes s.manager)
        (fun _ _ _ => step_owes) (start_owes managed firstKey joinedAt) reach
    have same : ∀ {v : State}, v.manager.setup = s.manager.setup →
        v.manager.currentParticipants roster =
          (EncryptionManager.new setup).currentParticipants roster := by
      intro v hv
      exact EncryptionManager.currentParticipants_of_setup
        (hv.trans ((run_setup reach).trans (start_setup setup firstKey joinedAt))) roster
    have accounted : Accounted t.manager (s.manager.currentParticipants roster) := by
      simp only [step, Option.ite_none_right_eq_some, Option.some.injEq] at next
      obtain ⟨-, rfl⟩ := next
      exact rollout_accounted owes (same rfl ▸ unique) (rolloutOutboundKey_spec _ _ _ _ _)
    obtain ⟨owes', accounted'⟩ := retries_accounted (step_owes owes next) accounted retried
    refine ⟨?_, fun call v hv => ?_⟩
    · rw [same ((run_setup retried).trans (step_setup next)), ← same rfl]
      exact accounted'
    · have spec := retryUndeliveredKey_spec u.manager call.roster call.memberId call.answer
      rw [hv] at spec
      exact retry_moved owes' spec

theorem nobody_left_out_bob :
    ∃ t ∈ step (start alice [1] 0) bobMissed,
      Accounted t.manager (t.manager.currentParticipants [bob]) := by
  obtain ⟨t, next⟩ := Option.isSome_iff_exists.mp
    (show (step (start alice [1] 0) bobMissed).isSome = true by decide)
  have all := (nobody_left_out_iff alice rfl [bob]).mpr (by decide)
  exact ⟨t, next, (all [1] 0 [] _ _ _ _ t rfl next [] t rfl).1⟩

/-- The roster lists Bob's member id under two joins and the host delivers to
neither: one of them is left without the key and without a retry. -/
theorem second_join_left_out :
    ∃ t ∈ step (start alice [1] 0)
        (.rollout [bob, { bob with membershipTs := some 2 }] ⟨0, 0, [2]⟩ (.ok []) 0),
      ∃ key ∈ t.manager.outboundKey,
        ∃ p ∈ t.manager.currentParticipants [bob, { bob with membershipTs := some 2 }],
          ¬ Holds key p ∧ ¬ IsOwed t.manager key p := by
  decide

end MatrixRtc.OwedKeys

import MatrixRtc.SequentialRollouts
import Mathlib.Data.List.Chain

/-!
# How often the outbound key rotates

Runs of whole rollouts and of `flush_due_rotation`, one at a time, under a clock that does not
go back and stands still up to the first await of a call. A run keeps the creation times of the
keys it minted. Every sum of instants saturates, as the program's do.

A rotation is due at one instant of the key in place: at the end of its freshness where a
participation that holds it has ended, else at the end of its lifetime. Whoever comes back as
the same join has not ended, so a flush can find that nothing is due any more.
-/
namespace MatrixRtc.RotationRates
open HostAnswers MemberEvents EncryptionManagers KeyRollout SequentialRollouts StepRuns

/-- What one call reads, and what it is answered. -/
structure Call where
  roster : List JoinedMembership
  now : ℕ
  key : List UInt8
  answer : SendAnswer
  signalledAt : ℕ

/-- The decision and the minting are one synchronous segment. -/
def Call.input (c : Call) : RolloutInput := ⟨c.now, c.now, c.key⟩

/-- `ensure_key_distribution` with no other distribution in progress: one rollout. -/
def ensureKeyDistribution (m : EncryptionManager) (c : Call) : EncryptionManager :=
  if m.config.manageMediaKeys then rolloutOutboundKey m c.roster c.input c.answer c.signalledAt
  else m

def flushDueRotation (m : EncryptionManager) (c : Call) : EncryptionManager :=
  match m.rotationDueAt with
  | none => m
  | some dueAt => if c.now < dueAt then m else ensureKeyDistribution m c

inductive Op where
  | rollout (c : Call)
  | flush (c : Call)

def Op.call : Op → Call
  | .rollout c | .flush c => c

def Op.apply (m : EncryptionManager) : Op → EncryptionManager
  | .rollout c => ensureKeyDistribution m c
  | .flush c => flushDueRotation m c

/-- The operation gets to a rollout. -/
def Op.rolls (m : EncryptionManager) : Op → Bool
  | .rollout _ => m.config.manageMediaKeys
  | .flush c => m.config.manageMediaKeys && m.rotationDueAt.any fun dueAt => dueAt ≤ c.now

/-- The creation time of the key a rollout mints. -/
def mintedBy (m : EncryptionManager) (c : Call) : List ℕ :=
  match (beginRollout m c.roster c.input).2 with
  | some p => if p.rotating then [p.key.creationTs] else []
  | none => []

structure State where
  manager : EncryptionManager
  clock : ℕ
  /-- When the last operation began. -/
  ranAt : ℕ
  minted : List ℕ

def step (s : State) (op : Op) : Option State :=
  if s.clock ≤ op.call.now ∧ op.call.now ≤ op.call.signalledAt ∧ op.call.signalledAt ≤ u64Max then
    some
      { manager := op.apply s.manager
        clock := op.call.signalledAt
        ranAt := op.call.now
        minted := s.minted ++ if op.rolls s.manager then mintedBy s.manager op.call else [] }
  else none

/-- A manager that has just joined. -/
def start (setup : Setup) (key : List UInt8) (now : ℕ) : State :=
  let m := (EncryptionManager.new setup).join key now
  { manager := m, clock := now, ranAt := now, minted := (m.outboundKey.map (·.creationTs)).toList }

/-- After a rollout that found a key: the instant belongs to the key left in place. -/
def DueAfter (s : State) (c : Call) (s' : State) : Prop :=
  (∃ current, s.manager.outboundKey = some current) →
    ∃ key, s'.manager.outboundKey = some key ∧
      s'.manager.rotationDueAt = some (satAdd key.creationTs
        (if s'.minted = s.minted ∧ left key (s.manager.currentParticipants c.roster) ≠ [] then
          s.manager.config.freshnessMs
        else s.manager.config.lifetimeMs))

/-- Everyone who holds the key is back, its lifetime has not passed, and nobody waits for it
whom it would be too old for. -/
def Reprieved (config : EncryptionConfig) (key : OutboundEncryptionKey)
    (participants : List ParticipantDeviceInfo) (now : ℕ) : Prop :=
  left key participants = [] ∧ now < satAdd key.creationTs config.lifetimeMs ∧
    (joined key participants = [] ∨ keyIsFresh config key now = true)

/-- A flush that is due mints a key, unless the key in place is reprieved: then it is due at the
end of its lifetime. -/
def FlushMints (s : State) (c : Call) (s' : State) : Prop :=
  ∃ key, s.manager.outboundKey = some key ∧
    ((Reprieved s.manager.config key (s.manager.currentParticipants c.roster) c.now ∧
        s'.minted = s.minted ∧
        s'.manager.rotationDueAt =
          some (satAdd key.creationTs s.manager.config.lifetimeMs)) ∨
      (¬ Reprieved s.manager.config key (s.manager.currentParticipants c.roster) c.now ∧
        s'.minted = s.minted ++ [c.now]))

/-- Nothing happens past a due instant before a flush at it, and the first rollout comes within
the lifetime of the first key. -/
def Punctual (s : State) (op : Op) : Prop :=
  ∀ key ∈ s.manager.outboundKey,
    op.call.now ≤
      s.manager.rotationDueAt.getD (satAdd key.creationTs s.manager.config.lifetimeMs)

instance (s : State) (op : Op) : Decidable (Punctual s op) :=
  inferInstanceAs (Decidable (∀ key ∈ s.manager.outboundKey, _))

section Rollout
variable {m : EncryptionManager}

@[simp] theorem recordSignalled_rotationDueAt (key : OutboundEncryptionKey)
    (useAfter atMs : ℕ) :
    (recordSignalled m key useAfter atMs).rotationDueAt = m.rotationDueAt := by
  unfold recordSignalled
  split_ifs <;> rfl

@[simp] theorem finishRollout_rotationDueAt (p : PendingRollout)
    (reachedAll : List ParticipantDeviceInfo) :
    (finishRollout m p reachedAll).rotationDueAt = m.rotationDueAt := by
  unfold finishRollout
  split_ifs <;> rfl

theorem rolloutOutboundKey_rotationDueAt (roster : List JoinedMembership) (input : RolloutInput)
    (answer : SendAnswer) (signalledAt : ℕ) :
    (rolloutOutboundKey m roster input answer signalledAt).rotationDueAt =
      (beginRollout m roster input).1.rotationDueAt := by
  unfold rolloutOutboundKey
  cases beginRollout m roster input with
  | mk m' pending =>
      cases pending with
      | none => rfl
      | some p =>
          dsimp only
          split_ifs <;> simp

theorem mem_addHolders_of_mem {holders more : List ParticipantDeviceInfo}
    {x : ParticipantDeviceInfo} (h : x ∈ holders) : x ∈ addHolders holders more := by
  induction more generalizing holders with
  | nil => exact h
  | cons p more ih =>
      rw [addHolders]
      split_ifs
      · exact ih h
      · exact ih (List.mem_append_left _ h)

theorem left_addHolders {key : OutboundEncryptionKey}
    {participants more : List ParticipantDeviceInfo} (sub : ∀ x ∈ more, x ∈ participants) :
    left { key with sharedWith := addHolders key.sharedWith more } participants = [] ↔
      left key participants = [] := by
  simp only [List.eq_nil_iff_forall_not_mem, mem_left]
  constructor
  · rintro nobody x ⟨holds, absent⟩
    exact nobody x ⟨mem_addHolders_of_mem holds, absent⟩
  · rintro nobody x ⟨holds, absent⟩
    rcases mem_addHolders holds with old | new
    · exact nobody x ⟨old, absent⟩
    · exact absent x (sub x new) rfl

/-- Everything a rollout does to the key in place, to the due instant and to what was minted. -/
inductive Rolled (m : EncryptionManager) (participants : List ParticipantDeviceInfo) (c : Call)
    (m' : EncryptionManager) (minted : List ℕ) : Prop
  | noKey (h : m.outboundKey = none) (key : m'.outboundKey = none)
      (due : m'.rotationDueAt = m.rotationDueAt) (none : minted = [])
  | kept {current : OutboundEncryptionKey} (h : m.outboundKey = some current)
      (kept : rotating m.config current participants c.now = false)
      (more : List ParticipantDeviceInfo) (sub : ∀ x ∈ more, x ∈ participants)
      (key : m'.outboundKey =
        some { current with sharedWith := addHolders current.sharedWith more })
      (due : m'.rotationDueAt = some (expiresAt m.config current participants c.now))
      (none : minted = [])
  | rotated {current : OutboundEncryptionKey} (h : m.outboundKey = some current)
      (rotates : rotating m.config current participants c.now = true)
      (reachedAll : List ParticipantDeviceInfo) (sub : ∀ x ∈ reachedAll, x ∈ participants)
      (key : m'.outboundKey = some ⟨c.key, m.nextKeyIndex, c.now, reachedAll⟩)
      (due : m'.rotationDueAt = some (satAdd c.now m.config.lifetimeMs))
      (one : minted = [c.now])

theorem rolloutOutboundKey_rolled (m : EncryptionManager) (c : Call) :
    Rolled m (m.currentParticipants c.roster) c
      (rolloutOutboundKey m c.roster c.input c.answer c.signalledAt) (mintedBy m c) := by
  have due := @rolloutOutboundKey_rotationDueAt m c.roster c.input c.answer c.signalledAt
  have spec := beginRollout_spec m c.roster c.input
  unfold mintedBy
  cases hb : beginRollout m c.roster c.input with
  | mk m' pending =>
      rw [hb] at spec due
      dsimp only at spec due ⊢
      cases spec with
      | noKey h hm hp =>
          subst hm hp
          rw [rolloutOutboundKey_done hb]
          exact .noKey h h rfl rfl
      | nothing h kept nobody hm hp =>
          subst hm hp
          rw [rolloutOutboundKey_done hb]
          exact .kept h kept [] nofun h rfl rfl
      | rotates h rotates hm hp =>
          have at_rotation := congrArg EncryptionManager.rotationDueAt hm
          subst hp
          have key := (rolloutOutboundKey_pending hb c.answer c.signalledAt).1
          rw [(finishRollout_rotates _ _ rfl).1] at key
          exact .rotated h rotates _ (fun t ht => (mem_servedBy_addressAll ht).1) key
            (due.trans at_rotation) rfl
      | @shares current h kept waiting _ _ hm hp =>
          have at_expiry := congrArg EncryptionManager.rotationDueAt hm
          have hk : m'.outboundKey = some current :=
            (congrArg EncryptionManager.outboundKey hm).trans h
          subst hp
          have key := (rolloutOutboundKey_pending hb c.answer c.signalledAt).1
          rw [(finishRollout_shares _ rfl hk).1] at key
          exact .kept h kept _
            (fun t ht => (mem_joined.mp (mem_servedBy_addressAll ht).1).1) key
            (due.trans at_expiry) rfl

end Rollout

section Decision
variable {config : EncryptionConfig} {key : OutboundEncryptionKey}
variable {participants : List ParticipantDeviceInfo} {now : ℕ}

theorem expiresAt_of_kept (kept : rotating config key participants now = false) :
    expiresAt config key participants now = satAdd key.creationTs
      (if left key participants ≠ [] then config.freshnessMs else config.lifetimeMs) := by
  split_ifs with gone
  · exact expiresAt_of_left gone
  · unfold rotating expiresAt at *
    rw [if_neg gone] at kept ⊢
    split_ifs at kept ⊢ with waiting
    · simp at kept
    · rfl

theorem freshness_of_rotating (created : key.creationTs ≤ now)
    (rotates : rotating config key participants now = true) :
    satAdd key.creationTs config.freshnessMs ≤ now := by
  have due : expiresAt config key participants now ≤ now := by simpa [rotating] using rotates
  by_cases gone : left key participants = []
  · unfold expiresAt at due
    rw [if_neg (not_not_intro gone)] at due
    split_ifs at due with waiting
    · have old : ¬ now - key.creationTs < config.freshnessMs := by
        simpa [keyIsFresh] using waiting.2
      exact (satAdd_le _ _).trans (by omega)
    · exact (satAdd_mono config.freshnessMs_le_lifetimeMs).trans due
  · rwa [expiresAt_of_left gone] at due

theorem rotating_iff_not_reprieved
    (due : left key participants ≠ [] → satAdd key.creationTs config.freshnessMs ≤ now) :
    rotating config key participants now = true ↔ ¬ Reprieved config key participants now := by
  unfold Reprieved
  by_cases gone : left key participants = []
  · unfold rotating expiresAt
    rw [if_neg (not_not_intro gone)]
    by_cases waiting : joined key participants = []
    · simp [gone, waiting]
    · cases fresh : keyIsFresh config key now <;> simp [gone, waiting]
  · simp [gone, rotating_of_left gone (due gone)]

end Decision

section Runs
variable {setup : Setup} {s s' : State} {op : Op}

structure Inv (setup : Setup) (s : State) : Prop where
  config : s.manager.config = setup.config
  managed : ∀ key ∈ s.manager.outboundKey, setup.config.manageMediaKeys = true
  newest : s.minted.getLast? = s.manager.outboundKey.map (·.creationTs)
  created : ∀ key ∈ s.manager.outboundKey, key.creationTs ≤ s.clock
  due : ∀ dueAt ∈ s.manager.rotationDueAt, ∃ key, s.manager.outboundKey = some key ∧
    (dueAt = satAdd key.creationTs setup.config.freshnessMs ∨
      dueAt = satAdd key.creationTs setup.config.lifetimeMs)
  spaced : s.minted.IsChain fun t t' => satAdd t setup.config.freshnessMs ≤ t'

/-- An operation is one rollout or nothing. -/
theorem apply_cases (m : EncryptionManager) (op : Op) :
    op.rolls m = true ∧ m.config.manageMediaKeys = true ∧
        op.apply m = rolloutOutboundKey m op.call.roster op.call.input op.call.answer
          op.call.signalledAt ∨
      op.rolls m = false ∧ op.apply m = m := by
  cases op with
  | rollout c =>
      cases manages : m.config.manageMediaKeys <;>
        simp [Op.rolls, Op.apply, Op.call, ensureKeyDistribution, manages]
  | flush c =>
      cases hdue : m.rotationDueAt with
      | none => simp [Op.rolls, Op.apply, flushDueRotation, hdue]
      | some dueAt =>
          by_cases early : c.now < dueAt
          · simp [Op.rolls, Op.apply, flushDueRotation, hdue, early]
          · cases manages : m.config.manageMediaKeys <;>
              simp [Op.rolls, Op.apply, Op.call, flushDueRotation, ensureKeyDistribution, hdue,
                early, manages]
            omega

/-- What one step does: nothing but pass the time, or one rollout. -/
inductive Steps (s : State) (op : Op) (s' : State) : Prop
  | idle (idle : op.rolls s.manager = false) (manager : s'.manager = s.manager)
      (minted : s'.minted = s.minted)
  | rolls {fresh : List ℕ} (managed : s.manager.config.manageMediaKeys = true)
      (rolled : Rolled s.manager (s.manager.currentParticipants op.call.roster) op.call s'.manager
        fresh)
      (minted : s'.minted = s.minted ++ fresh)

theorem step_spec (h : step s op = some s') :
    (s.clock ≤ op.call.now ∧ op.call.now ≤ s'.clock ∧ s'.clock ≤ u64Max) ∧
      s'.ranAt = op.call.now ∧ s'.manager.config = s.manager.config ∧ Steps s op s' := by
  simp only [step, Option.ite_none_right_eq_some, Option.some.injEq] at h
  obtain ⟨clock, rfl⟩ := h
  refine ⟨clock, rfl, ?_⟩
  rcases apply_cases s.manager op with ⟨rolls, managed, applied⟩ | ⟨idle, applied⟩
  · have rolled := rolloutOutboundKey_rolled s.manager op.call
    rw [← applied] at rolled
    refine ⟨?_, .rolls managed rolled ?_⟩
    · dsimp only
      rw [applied]
      exact EncryptionManager.config_of_setup (rolloutOutboundKey_setup _ _ _ _ _)
    · exact congrArg _ (if_pos rolls)
  · refine ⟨congrArg _ applied, .idle idle applied ?_⟩
    rw [idle, if_neg Bool.false_ne_true, List.append_nil]

theorem isChain_concat {r : ℕ → ℕ → Prop} {ts : List ℕ} {t : ℕ} (chain : ts.IsChain r)
    (last : ∀ t' ∈ ts.getLast?, r t' t) : (ts ++ [t]).IsChain r := by
  refine chain.append (.singleton t) fun x hx y hy => ?_
  cases hy
  exact last x hx

theorem Inv.keep (inv : Inv setup s) (h : step s op = some s') : Inv setup s' := by
  obtain ⟨⟨later, began, -⟩, -, config, steps⟩ := step_spec h
  have config' := config.trans inv.config
  cases steps with
  | idle _ manager minted =>
      have grown : s.clock ≤ s'.clock := later.trans began
      refine ⟨config', ?_, ?_, fun key hk => ?_, ?_, ?_⟩
      · exact manager ▸ inv.managed
      · rw [minted, manager, inv.newest]
      · exact (inv.created key (manager ▸ hk)).trans grown
      · exact manager ▸ inv.due
      · exact minted ▸ inv.spaced
  | rolls managed rolled minted =>
      have manages : setup.config.manageMediaKeys = true := inv.config ▸ managed
      cases rolled with
      | noKey hk key due none =>
          refine ⟨config', fun _ _ => manages, ?_, fun k hk' => ?_, fun dueAt hd => ?_, ?_⟩
          · rw [minted, none, List.append_nil, inv.newest, hk, key]
          · rw [key] at hk'
            cases hk'
          · obtain ⟨k, hk', -⟩ := inv.due dueAt (due ▸ hd)
            exact nomatch hk.symm.trans hk'
          · rw [minted, none, List.append_nil]
            exact inv.spaced
      | @kept current hk kept more sub key due none =>
          refine ⟨config', fun _ _ => manages, ?_, fun k hk' => ?_, fun dueAt hd => ?_, ?_⟩
          · rw [minted, none, List.append_nil, inv.newest, hk, key]
            rfl
          · rw [key] at hk'
            cases hk'
            exact (inv.created current hk).trans (later.trans began)
          · rw [due, expiresAt_of_kept kept, inv.config] at hd
            cases hd
            refine ⟨_, key, ?_⟩
            split_ifs
            · exact .inl rfl
            · exact .inr rfl
          · rw [minted, none, List.append_nil]
            exact inv.spaced
      | @rotated current hk rotates reachedAll sub key due one =>
          refine ⟨config', fun _ _ => manages, ?_, fun k hk' => ?_, fun dueAt hd => ?_, ?_⟩
          · rw [minted, one, List.getLast?_concat, key]
            rfl
          · rw [key] at hk'
            cases hk'
            exact began
          · rw [due, inv.config] at hd
            cases hd
            exact ⟨_, key, .inr rfl⟩
          · rw [minted, one]
            refine isChain_concat inv.spaced fun t ht => ?_
            rw [inv.newest, hk] at ht
            cases ht
            rw [← inv.config]
            exact freshness_of_rotating ((inv.created current hk).trans later) rotates

theorem start_inv (setup : Setup) (key : List UInt8) (now : ℕ) :
    Inv setup (start setup key now) := by
  unfold start EncryptionManager.join
  cases manages : setup.config.manageMediaKeys with
  | true =>
      rw [if_pos (show (EncryptionManager.new setup).config.manageMediaKeys = true from manages)]
      refine ⟨rfl, fun _ _ => manages, rfl, ?_, nofun, .singleton now⟩
      rintro _ ⟨⟩
      exact le_rfl
  | false =>
      rw [if_neg (show ¬ (EncryptionManager.new setup).config.manageMediaKeys = true by
        rw [show (EncryptionManager.new setup).config = setup.config from rfl, manages]
        decide)]
      exact ⟨rfl, nofun, rfl, nofun, nofun, .nil⟩

/-- Where every operation is punctual no key outlives its lifetime. -/
structure Expires (setup : Setup) (s : State) : Prop where
  replaced : s.minted.IsChain fun t t' => t' ≤ satAdd t setup.config.lifetimeMs
  current : ∀ key ∈ s.manager.outboundKey,
    s.ranAt ≤ satAdd key.creationTs setup.config.lifetimeMs

theorem le_satAdd {a b : ℕ} (h : a ≤ u64Max) : a ≤ satAdd a b := by
  unfold satAdd
  omega

theorem Expires.keep (expires : Expires setup s) (inv : Inv setup s) (punctual : Punctual s op)
    (h : step s op = some s') : Expires setup s' := by
  obtain ⟨⟨-, began, bounded⟩, ran, -, steps⟩ := step_spec h
  have intime : ∀ key ∈ s.manager.outboundKey,
      op.call.now ≤ satAdd key.creationTs setup.config.lifetimeMs := by
    intro key hk
    have limit := punctual key hk
    cases hdue : s.manager.rotationDueAt with
    | none => rwa [hdue, inv.config] at limit
    | some dueAt =>
        rw [hdue] at limit
        obtain ⟨k, hk', at_freshness | at_lifetime⟩ := inv.due dueAt hdue
        all_goals obtain rfl := Option.some.inj (hk.symm.trans hk')
        · exact limit.trans (at_freshness.le.trans
            (satAdd_mono setup.config.freshnessMs_le_lifetimeMs))
        · exact limit.trans at_lifetime.le
  cases steps with
  | idle _ manager minted =>
      refine ⟨minted ▸ expires.replaced, fun key hk => ?_⟩
      rw [ran]
      exact intime key (manager ▸ hk)
  | rolls managed rolled minted =>
      cases rolled with
      | noKey hk key due none =>
          refine ⟨?_, fun k hk' => ?_⟩
          · rw [minted, none, List.append_nil]
            exact expires.replaced
          · rw [key] at hk'
            cases hk'
      | @kept current hk kept more sub key due none =>
          refine ⟨?_, fun k hk' => ?_⟩
          · rw [minted, none, List.append_nil]
            exact expires.replaced
          · rw [key] at hk'
            cases hk'
            rw [ran]
            exact intime current hk
      | @rotated current hk rotates reachedAll sub key due one =>
          refine ⟨?_, fun k hk' => ?_⟩
          · rw [minted, one]
            refine isChain_concat expires.replaced fun t ht => ?_
            rw [inv.newest, hk] at ht
            cases ht
            exact intime current hk
          · rw [key] at hk'
            cases hk'
            rw [ran]
            exact le_satAdd (began.trans bounded)

/-- What a rollout leaves in `rotation_due_at`. -/
theorem Inv.dueAfter (inv : Inv setup s) {c : Call} (h : step s (.rollout c) = some s') :
    DueAfter s c s' := by
  rintro ⟨current, hk⟩
  have manages : s.manager.config.manageMediaKeys = true :=
    inv.config ▸ inv.managed current hk
  obtain ⟨-, -, -, steps⟩ := step_spec h
  rcases steps with ⟨idle, -, -⟩ | ⟨-, rolled, minted⟩
  · exact nomatch manages.symm.trans idle
  cases rolled with
  | noKey none => exact nomatch hk.symm.trans none
  | @kept own hk' kept more sub key due none =>
      refine ⟨_, key, ?_⟩
      have same : s'.minted = s.minted := by rw [minted, none, List.append_nil]
      have gone := not_congr (@left_addHolders own _ more sub)
      rw [due, expiresAt_of_kept kept]
      simp only [same, true_and]
      exact congrArg (fun n => some (satAdd own.creationTs n)) (if_congr gone.symm rfl rfl)
  | @rotated own hk' rotates reachedAll sub key due one =>
      refine ⟨_, key, ?_⟩
      have grown : s'.minted ≠ s.minted := by simp [minted, one]
      rw [due, if_neg (fun both => grown both.1)]

/-- A flush that is due mints a key unless the one in place is reprieved. -/
theorem Inv.flushMints (inv : Inv setup s) {c : Call} {dueAt : ℕ}
    (h : step s (.flush c) = some s') (hdue : s.manager.rotationDueAt = some dueAt)
    (late : dueAt ≤ c.now) : FlushMints s c s' := by
  obtain ⟨key, hk, instant⟩ := inv.due dueAt hdue
  have manages : s.manager.config.manageMediaKeys = true :=
    inv.config ▸ inv.managed key hk
  have past : satAdd key.creationTs s.manager.config.freshnessMs ≤ c.now := by
    rw [inv.config]
    rcases instant with rfl | rfl
    · exact late
    · exact (satAdd_mono setup.config.freshnessMs_le_lifetimeMs).trans late
  have due : (Op.flush c).rolls s.manager = true := by simp [Op.rolls, manages, hdue, late]
  obtain ⟨-, -, -, steps⟩ := step_spec h
  rcases steps with ⟨idle, -, -⟩ | ⟨-, rolled, minted⟩
  · exact nomatch due.symm.trans idle
  refine ⟨key, hk, ?_⟩
  rw [← rotating_iff_not_reprieved fun _ => past]
  cases rolled with
  | noKey none => exact nomatch hk.symm.trans none
  | @kept own hk' kept more sub key' due none =>
      obtain rfl := Option.some.inj (hk.symm.trans hk')
      have reprieved := not_not.mp
        (mt (rotating_iff_not_reprieved fun _ => past).mpr (Bool.not_eq_true _ ▸ kept))
      refine .inl ⟨reprieved, by rw [minted, none, List.append_nil], ?_⟩
      rw [due, expiresAt_of_kept kept, if_neg (not_not_intro reprieved.1)]
  | @rotated own hk' rotates reachedAll sub key' due one =>
      obtain rfl := Option.some.inj (hk.symm.trans hk')
      exact .inr ⟨rotates, by rw [minted, one]; rfl⟩

/-- The rate of rotation, the due instant after each rollout, what a due flush does, and how long
a key is outbound where every flush is on time. -/
theorem rotation_rate (setup : Setup) (key : List UInt8) (joined : ℕ) (ops : List Op) (s : State)
    (clock : joined ≤ u64Max) (h : run step (start setup key joined) ops = some s) :
    (s.minted.IsChain fun t t' => satAdd t setup.config.freshnessMs ≤ t') ∧
      (∀ c s', step s (.rollout c) = some s' → DueAfter s c s') ∧
      (∀ c s' dueAt, step s (.flush c) = some s' → s.manager.rotationDueAt = some dueAt →
        dueAt ≤ c.now → FlushMints s c s') ∧
      (Admissible step Punctual (start setup key joined) ops →
        (s.minted.IsChain fun t t' => t' ≤ satAdd t setup.config.lifetimeMs) ∧
          ∀ k ∈ s.manager.outboundKey,
            s.ranAt ≤ satAdd k.creationTs setup.config.lifetimeMs) := by
  have inv : Inv setup s :=
    run_invariant_of_step (fun _ _ _ inv => inv.keep) (start_inv setup key joined) h
  refine ⟨inv.spaced, fun c s' => inv.dueAfter, fun c s' dueAt => inv.flushMints, fun punctual => ?_⟩
  have expires : Expires setup (start setup key joined) := by
    unfold start EncryptionManager.join
    split_ifs
    · refine ⟨.singleton joined, ?_⟩
      rintro _ ⟨⟩
      exact le_satAdd clock
    · exact ⟨.nil, nofun⟩
  have both : Inv setup s ∧ Expires setup s :=
    run_invariant (I := fun s => Inv setup s ∧ Expires setup s) (fun _ _ _ both ok h => ⟨both.1.keep h, both.2.keep both.1 ok h⟩)
      ⟨start_inv setup key joined, expires⟩ punctual h
  exact ⟨both.2.replaced, both.2.current⟩

end Runs

/-- A call of the concrete runs, answered at once. -/
def callAt (now : ℕ) (roster : List JoinedMembership) : Call :=
  ⟨roster, now, [2], .ok [.sent ⟨"@bob:x", "B"⟩], now⟩

/-- Bob is served and leaves; the rotation he leaves owed is collected when it is due. -/
def bobLeaves : List Op :=
  [.rollout (callAt 0 [bob]), .rollout (callAt 1000 []), .flush (callAt 10000 [])]

theorem rotation_rate_bobLeaves :
    ∃ s, run step (start alice [1] 0) bobLeaves = some s ∧ s.minted = [0, 10000] ∧
      (s.minted.IsChain fun t t' => satAdd t alice.config.freshnessMs ≤ t') ∧
      s.minted.IsChain fun t t' => t' ≤ satAdd t alice.config.lifetimeMs := by
  refine ⟨_, rfl, rfl, ?_⟩
  have rate := rotation_rate alice [1] 0 bobLeaves _ (by decide) rfl
  exact ⟨rate.1, (rate.2.2.2 (by decide)).1⟩

/-- A flush at the due instant mints nothing where Bob is back as the same join; at the
configuration's limit the instant is the largest one, and a key minted there comes early; and
before the first rollout nothing is due. -/
theorem due_flush_mints_nothing :
    (∃ s s', run step (start alice [1] 0)
        [.rollout (callAt 0 [bob]), .rollout (callAt 1000 [])] = some s ∧
      s.manager.rotationDueAt = some 10000 ∧
      step s (.flush (callAt 10000 [bob])) = some s' ∧ s'.minted = [0]) ∧
      (∃ s s', run step
          (start { alice with config := { keyRotationGracePeriodMs := u64Max } } [1] 1)
          [.rollout (callAt 1 [bob])] = some s ∧
        s.manager.rotationDueAt ≠ some (1 + u64Max) ∧
        step s (.flush (callAt u64Max [bob])) = some s' ∧ s'.minted = [1, u64Max] ∧
        ¬ 1 + u64Max ≤ u64Max) ∧
      ∃ s, run step (start alice [1] 0)
          [.flush (callAt (alice.config.lifetimeMs + 1) [bob])] = some s ∧ s.minted = [0] := by
  refine ⟨⟨_, _, rfl, rfl, rfl, rfl⟩, ⟨_, _, rfl, ?_, rfl, rfl, by decide⟩, _, rfl, rfl⟩
  decide

end MatrixRtc.RotationRates

import MatrixRtc.MediaKeyHandlers
import MatrixRtc.SwitchDelays

/-!
# Whether a rotation takes effect

The native ring holds one index less than a byte counts, so the key minted as number
255 is refused by it. Up to there every key that is signalled is accepted, and the local
sender's hook is called with its index.
-/
namespace MatrixRtc.RotationEffects
open HostAnswers EncryptionManagers KeyRollout StepRuns MediaKeyHandlers
open MintedKeys (indexOf ownIdentity)

/-- `NATIVE_KEY_RING_MAX`. -/
def nativeKeyRingMax : ℕ := 255

/-- `LiveKitKeyRing`, over the `set_key` of the connections' key providers. -/
def liveKitKeyRing (setKey : String → UInt8 → List UInt8 → Bool) : FrameKeyRing :=
  ⟨nativeKeyRingMax, setKey⟩

/-- The key was accepted, and the local sender's hook called with its index. -/
def Installation.Effective (i : Installation) : Prop :=
  i.applied = ⟨false, some i.key.keyIndex⟩

/-- Every key minted has an index of the ring, and every key signalled takes effect: its
timer is set, or it was applied and accepted, and the sender moved to it. -/
structure TakesEffect (s : System) : Prop where
  minted : ∀ mint ∈ s.source.minted, mint.key.keyIndex.toNat < nativeKeyRingMax
  signalled : ∀ d ∈ s.source.deliveries, timerOf d ∈ s.scheduled ∨
    ∃ i ∈ s.installations, i.mint = d.mint ∧ i.key = .ofSignal d.signal
  installed : ∀ i ∈ s.installations, Installation.Effective i

theorem indexOf_lt {k : ℕ} (h : k < nativeKeyRingMax) :
    (indexOf k).toNat < nativeKeyRingMax := by
  have small : k < 256 := h.trans (by decide)
  have same : (indexOf k).toNat = k := by
    rw [indexOf, UInt8.toNat_ofNat', Nat.mod_eq_of_lt small]
  omega

theorem effective_of_index {setKey : String → UInt8 → List UInt8 → Bool} {identity : String}
    {key : ParticipantKey}
    (accepts : ∀ identity index key, index.toNat < nativeKeyRingMax →
      setKey identity index key = true)
    (ours : key.rtcBackendIdentity = identity) (index : key.keyIndex.toNat < nativeKeyRingMax) :
    outcome (some (liveKitKeyRing setKey)) (some identity) key = ⟨false, some key.keyIndex⟩ := by
  have taken : rejects (some (liveKitKeyRing setKey)) key = false := by
    simp only [rejects, liveKitKeyRing, index, if_true, accepts _ _ _ index, Bool.not_true]
  simp [outcome, taken, ours]

section Runs
open DistributionRuns (inputAt)

/-- Alice is alone in the call, `k` keys were minted, and nothing is in progress. -/
structure Alone (k : ℕ) (h : OwnKeySignals.System) : Prop where
  config : h.base.manager.config = {}
  handler : h.base.manager.signalHandler = true
  roster : h.base.roster = []
  rollout : h.base.rollout = none
  free : h.base.manager.keyDistributionInProgress = false
  calm : h.base.manager.needNewDistribution = false
  signalled : ∃ key, h.base.manager.outboundKey = some key ∧ key.creationTs ≤ h.base.clock ∧
    h.base.manager.signalledKey.map SignalledKey.keyIndex = some key.keyIndex
  minted : h.minted.length = k

/-- With nobody else in the call a key is replaced at the end of its lifetime. -/
theorem beginRollout_alone {m : EncryptionManager} {key : OutboundEncryptionKey}
    {input : RolloutInput} (in_place : m.outboundKey = some key)
    (due : key.creationTs + m.config.lifetimeMs ≤ input.now) :
    beginRollout m [] input =
      ({ settleRoster m [] with
          rotationDueAt := some (dueAfter m.config key [] input.now)
          nextKeyIndex := m.nextKeyIndex + 1 },
        some ⟨true, ⟨input.key, m.nextKeyIndex, input.mintedAt, []⟩, [], [], 0, none,
          input.now⟩) := by
  have joined_nil : joined key [] = [] := rfl
  have late : expiresAt m.config key [] input.now ≤ input.now := by
    have lifetime : satAdd key.creationTs m.config.lifetimeMs ≤ input.now :=
      (satAdd_le _ _).trans due
    unfold expiresAt
    rw [joined_nil]
    split_ifs with gone waiting
    · exact (min_le_left _ _).trans lifetime
    · exact absurd rfl waiting.1
    · exact lifetime
  have rotates : rotating m.config key [] input.now = true := by
    rw [rotating, decide_eq_true_eq]
    exact late
  have at_once : useAfterMs m.config key [] input.now = 0 := by
    simp [useAfterMs, outgoingKeyIsLive]
  have nobody : m.currentParticipants [] = [] := rfl
  have config : (settleRoster m []).config = m.config := rfl
  simp only [beginRollout, nobody, settleRoster_outboundKey, in_place, decideRollout, config,
    rotates, at_once, createNewOutboundKey, setRotationDueAt, and_self, if_true, addressAll,
    List.filterMap_nil]
  rfl

/-- The rotation has stored its key, and the handler is taking its signal. -/
structure Signalling (k : ℕ) (now : ℕ) (h : OwnKeySignals.System) : Prop where
  config : h.base.manager.config = {}
  handler : h.base.manager.signalHandler = true
  roster : h.base.roster = []
  calm : h.base.manager.needNewDistribution = false
  clock : h.base.clock = now
  rollout : ∃ p, h.base.rollout = some (.signalling p) ∧
    ∃ key, h.base.manager.outboundKey = some key ∧ key.creationTs ≤ now ∧
      p.key.keyIndex = key.keyIndex
  minted : h.minted.length = k

theorem rolloutOnce_alone {h : OwnKeySignals.System} {key : OutboundEncryptionKey} {now : ℕ}
    (config : h.base.manager.config = {}) (handler : h.base.manager.signalHandler = true)
    (roster : h.base.roster = []) (calm : h.base.manager.needNewDistribution = false)
    (clock : h.base.clock = now) (in_place : h.base.manager.outboundKey = some key)
    (due : key.creationTs + h.base.manager.config.lifetimeMs ≤ now) :
    Signalling (h.minted.length + 1) now (h.rolloutOnce (inputAt now).first now) := by
  unfold OwnKeySignals.System.rolloutOnce
  rw [roster, beginRollout_alone in_place due]
  simp only [rolloutSend, if_true, OwnKeySignals.System.afterSend, signalKeyToApp, finishRollout,
    settleRoster, handler]
  constructor
  · exact config
  · rfl
  · exact roster
  · exact calm
  · exact clock
  · exact ⟨_, rfl, _, rfl, Nat.le_refl _, rfl⟩
  · exact List.length_append

/-- The handler returns, and the loop of the distribution ends. -/
theorem alone_of_signalling {k now : ℕ} {h : OwnKeySignals.System} (s : Signalling k now h) :
    ∃ t, OwnKeySignals.step h (.act (.rolloutSignalled now (inputAt now).next) now) = some t ∧
      Alone k t := by
  obtain ⟨config, handler, roster, calm, clock, ⟨p, rollout, key, in_place, old, index⟩, rfl⟩ := s
  have reads : h.base.clock ≤ now ∧
      DistributionRuns.RolloutInput.Reads now (inputAt now).next := by
    simp only [inputAt, DistributionRuns.RolloutInput.Reads]
    omega
  simp only [OwnKeySignals.step, OwnKeySignals.act, rollout, reads, and_self, if_true,
    Option.bind_some, OwnKeySignals.System.followUp, OwnKeySignals.System.record,
    OwnKeySignals.System.tick, recordSignalled, handler, calm, Bool.false_eq_true, if_false,
    OwnKeySignals.System.closeLoop, DistributionRuns.System.closeLoop]
  refine ⟨_, if_pos (Nat.le_refl _), ?_⟩
  constructor
  · exact config
  · rfl
  · exact roster
  · rfl
  · rfl
  · rfl
  · exact ⟨key, in_place, old, congrArg some index⟩
  · rfl

theorem ensureKeyDistribution_alone {k now : ℕ} {h : OwnKeySignals.System} (alone : Alone k h)
    (due : h.base.clock + h.base.manager.config.lifetimeMs ≤ now) :
    Signalling (k + 1) now ((h.tick now).ensureKeyDistribution (inputAt now) now) := by
  obtain ⟨config, handler, roster, -, free, calm, ⟨key, in_place, old, -⟩, rfl⟩ := alone
  have manages : ((h.tick now).base.manager.config.manageMediaKeys = false) = False := by
    simp only [OwnKeySignals.System.tick, config, Bool.true_eq_false]
  have unlocked : (h.tick now).base.manager.keyDistributionInProgress = false := free
  let locked : OwnKeySignals.System :=
    { h.tick now with base := { (h.tick now).base with
      manager := { (h.tick now).base.manager with keyDistributionInProgress := true } } }
  have rotated : Signalling (h.minted.length + 1) now
      (locked.rolloutOnce (inputAt now).first now) := by
    change Signalling (locked.minted.length + 1) now _
    apply rolloutOnce_alone (h := locked)
    · exact config
    · exact handler
    · exact roster
    · exact calm
    · rfl
    · exact in_place
    · exact (Nat.add_le_add_right old _).trans due
  obtain ⟨p, suspended, -⟩ := rotated.rollout
  have stays : (locked.rolloutOnce (inputAt now).first now).followUp (inputAt now).next now =
      locked.rolloutOnce (inputAt now).first now := by
    unfold OwnKeySignals.System.followUp
    rw [suspended]
  unfold OwnKeySignals.System.ensureKeyDistribution
  simp only [manages, if_false, unlocked, Bool.false_eq_true]
  rw [stays]
  exact rotated

/-- One more rotation, signalled at once. -/
theorem alone_rotates {k : ℕ} {h : OwnKeySignals.System} (alone : Alone k h) :
    ∃ as t, run OwnKeySignals.step h as = some t ∧ Alone (k + 1) t := by
  obtain ⟨now, at_end⟩ : ∃ now, now = h.base.clock + h.base.manager.config.lifetimeMs := ⟨_, rfl⟩
  have signalling := ensureKeyDistribution_alone alone at_end.ge
  obtain ⟨t, answered, alone'⟩ := alone_of_signalling signalling
  obtain ⟨config, -, -, -, -, -, ⟨key, in_place, old, signalled⟩, -⟩ := alone
  have reads : (inputAt now).Reads h.base.clock := by
    simp only [inputAt, DistributionRuns.LoopInput.Reads, DistributionRuns.RolloutInput.Reads]
    omega
  have update : (h.tick now).onMembershipsUpdate (inputAt now) now =
      (h.tick now).ensureKeyDistribution (inputAt now) now := by
    unfold OwnKeySignals.System.onMembershipsUpdate
    simp only [OwnKeySignals.System.tick, config, Bool.true_eq_false, if_false, in_place,
      signalled, ne_eq, not_true]
  have updated : OwnKeySignals.step h (.act (.onMembershipsUpdate (inputAt now)) now) =
      some ((h.tick now).ensureKeyDistribution (inputAt now) now) := by
    simp only [OwnKeySignals.step, OwnKeySignals.act, reads, if_true, Option.bind_some]
    rw [show (inputAt now).next.mintedAt = now from rfl, update, if_pos signalling.clock.le]
    have ticked := signalling.clock
    generalize (h.tick now).ensureKeyDistribution (inputAt now) now = u at ticked
    subst ticked
    rfl
  have finished : run OwnKeySignals.step ((h.tick now).ensureKeyDistribution (inputAt now) now)
      [.act (.rolloutSignalled now (inputAt now).next) now] = some t :=
    run_cons.mpr ⟨t, answered, run_nil t⟩
  exact ⟨_, t, run_cons.mpr ⟨_, updated, finished⟩, alone'⟩

theorem alone_start : ∃ t, run OwnKeySignals.step
    (OwnKeySignals.start SwitchDelays.listening [] [1] 0)
    [.act (.onMembershipsUpdate (inputAt 0)) 0, .act (.eagerSignalled 0 0 (inputAt 0)) 0] =
      some t ∧ Alone 1 t := by
  refine ⟨_, rfl, ?_⟩
  constructor
  · rfl
  · rfl
  · rfl
  · rfl
  · rfl
  · rfl
  · exact ⟨_, rfl, Nat.le_refl _, rfl⟩
  · rfl

theorem mints_any (k : ℕ) : ∃ as t, run OwnKeySignals.step
    (OwnKeySignals.start SwitchDelays.listening [] [1] 0) as = some t ∧ Alone (k + 1) t := by
  induction k with
  | zero =>
      obtain ⟨t, taken, alone⟩ := alone_start
      exact ⟨_, t, taken, alone⟩
  | succ k ih =>
      obtain ⟨as, t, taken, alone⟩ := ih
      obtain ⟨bs, u, more, alone'⟩ := alone_rotates alone
      exact ⟨as ++ bs, u, run_append taken more, alone'⟩

/-- The handler follows whatever the manager does. -/
theorem run_manager {s : System} {as : List OwnKeySignals.Action} {u : OwnKeySignals.System}
    (h : run OwnKeySignals.step s.source as = some u) :
    ∃ t, run step s (as.map Action.manager) = some t ∧ t.source = u := by
  induction as generalizing s with
  | nil =>
      cases h
      exact ⟨s, rfl, rfl⟩
  | cons a as ih =>
      obtain ⟨source, taken, rest⟩ := run_cons.mp h
      let next := { s with source := source }.takeSignals
        (source.deliveries.drop s.source.deliveries.length)
      have follows : next.source = source := takeSignals_source _ _
      obtain ⟨t, reached, eq⟩ := ih (s := next) (by rw [follows]; exact rest)
      refine ⟨t, run_cons.mpr ⟨next, ?_, reached⟩, eq⟩
      simp only [step, taken, Option.map_some]
      rfl

/-- A ring that accepts every key. -/
def acceptingRing : FrameKeyRing := liveKitKeyRing fun _ _ _ => true

/-- A handler with its ring, whose hook is installed for Alice. -/
def attached : MediaKeyHandler :=
  ⟨some acceptingRing, fun _ => none, some (ownIdentity SwitchDelays.listening)⟩

end Runs

end MatrixRtc.RotationEffects

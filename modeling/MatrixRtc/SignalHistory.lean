import MatrixRtc.OwnKeySignals

/-!
# What a step does to our own keys

Every action is a chain of elementary moves: a key is minted, stored and signalled, a
signal is recorded, the key in place is signalled eagerly or replayed. What is said of
all runs is then said of each move. The moves that signal the key in place outside its
rotation take a condition of the reader's choice.
-/
namespace MatrixRtc.SignalHistory
open EncryptionManagers KeyRollout InboundKeys StepRuns OwnKeySignals
open DistributionRuns (LoopInput RolloutPhase)
open Relation (ReflTransGen)

/-- The rollout in progress, if it rotates. -/
def rotation (s : DistributionRuns.System) : Option RolloutPhase :=
  s.rollout.filter fun
    | .sending p => p.rotating
    | .signalling _ => true

/-- What of the program the history is about. -/
structure Own where
  setup : Setup
  nextKeyIndex : UInt8
  inPlace : Option (UInt8 × List UInt8)
  signalledKey : Option SignalledKey
  rotation : Option RolloutPhase
  eager : List OutboundEncryptionKey
  signals : List KeyMaterialSignal

def ownOf (m : EncryptionManager) (rotation : Option RolloutPhase)
    (eager : List OutboundEncryptionKey) (signals : List KeyMaterialSignal) : Own where
  setup := m.setup
  nextKeyIndex := m.nextKeyIndex
  inPlace := m.outboundKey.map fun k => (k.keyIndex, k.key)
  signalledKey := m.signalledKey
  rotation := rotation
  eager := eager
  signals := signals

def own (s : DistributionRuns.System) : Own := ownOf s.manager (rotation s) s.eager s.signals

/-- A move of the history, with what the program does beside it. -/
inductive Move (ok : System → Prop) : System → System → Prop
  | idle {h : System} {b : DistributionRuns.System} (same : own b = own h.base)
      (later : h.base.clock ≤ b.clock) : Move ok h { h with base := b }
  | mint {h : System} {b : DistributionRuns.System} {p : PendingRollout}
      (free : rotation h.base = none) (later : h.base.clock = b.clock)
      (index : p.key.keyIndex = h.base.manager.nextKeyIndex) (decided : p.now ≤ b.clock)
      (useAfter : p.useAfterMs =
        if h.outgoingLive then h.base.manager.config.delayBeforeUseMs else 0)
      (some_key : h.base.manager.outboundKey ≠ none)
      (next : own b = { own h.base with
        nextKeyIndex := h.base.manager.nextKeyIndex + 1
        rotation := some (.sending p) }) :
      Move ok h { h with base := b, minted := h.minted ++ [⟨p.key, p.now, h.outgoingLive⟩] }
  | store {h : System} {b : DistributionRuns.System} {p : PendingRollout}
      (sending : rotation h.base = some (.sending p)) (later : h.base.clock = b.clock)
      (next : own b = { own h.base with
        inPlace := some (p.key.keyIndex, p.key.key)
        rotation := none }) :
      Move ok h { h with base := b, stored := h.newest }
  | signal {h : System} {b : DistributionRuns.System} {p : PendingRollout}
      {signal : KeyMaterialSignal} {endsAt : ℕ}
      (sending : rotation h.base = some (.sending p)) (later : h.base.clock = b.clock)
      (soon : b.clock ≤ endsAt)
      (given : signal =
        ⟨p.key.key, p.key.keyIndex, h.base.manager.ownRtcIdentity, p.useAfterMs⟩)
      (next : own b = { own h.base with
        inPlace := some (p.key.keyIndex, p.key.key)
        rotation := some (.signalling p)
        signals := h.base.signals ++ [signal] }) :
      Move ok h { h with
        base := b
        stored := h.newest
        deliveries := h.deliveries ++ [⟨h.newest, signal, endsAt⟩] }
  | recordRollout {h : System} {b : DistributionRuns.System} {p : PendingRollout} {atMs : ℕ}
      (signalling : rotation h.base = some (.signalling p)) (later : h.base.clock ≤ atMs)
      (soon : atMs ≤ b.clock)
      (next : own b = { own h.base with
        signalledKey := if h.base.manager.signalHandler then
            some ⟨p.key.keyIndex, atMs, p.useAfterMs⟩
          else h.base.manager.signalledKey
        rotation := none }) :
      Move ok h { h with
        base := b
        recorded := if h.base.manager.signalHandler then some h.stored else h.recorded }
  | eager {h : System} {b : DistributionRuns.System} {key : OutboundEncryptionKey}
      {signal : KeyMaterialSignal} {endsAt : ℕ}
      (inPlace : h.base.manager.outboundKey = some key) (allowed : ok h)
      (unsignalled : h.base.manager.signalledKey.map SignalledKey.keyIndex ≠ some key.keyIndex)
      (later : h.base.clock = b.clock) (soon : b.clock ≤ endsAt)
      (given : signal = ⟨key.key, key.keyIndex, h.base.manager.ownRtcIdentity, 0⟩)
      (next : own b = { own h.base with
        eager := h.base.eager ++ [key]
        signals := h.base.signals ++ [signal] }) :
      Move ok h { h with
        base := b
        eagerMints := h.eagerMints ++ [h.stored]
        deliveries := h.deliveries ++ [⟨h.stored, signal, endsAt⟩] }
  | recordEager {h : System} {b : DistributionRuns.System} {key : OutboundEncryptionKey}
      {i atMs : ℕ} (pending : h.base.eager[i]? = some key) (later : h.base.clock ≤ atMs)
      (soon : atMs ≤ b.clock)
      (next : own b = { own h.base with
        signalledKey := if h.base.manager.signalHandler then some ⟨key.keyIndex, atMs, 0⟩
          else h.base.manager.signalledKey
        eager := h.base.eager.eraseIdx i }) :
      Move ok h { h with
        base := b
        recorded := if h.base.manager.signalHandler then h.eagerMints[i]? else h.recorded
        eagerMints := h.eagerMints.eraseIdx i }
  | replay {h : System} {b : DistributionRuns.System} {signal : KeyMaterialSignal} {now : ℕ}
      (given : replayOwnKey h.base.manager now = some signal) (allowed : ok h)
      (later : h.base.clock ≤ now) (soon : b.clock = h.base.clock)
      (next : own b = { own h.base with signals := h.base.signals ++ [signal] }) :
      Move ok h { h with base := b, deliveries := h.deliveries ++ [⟨h.stored, signal, now⟩] }

abbrev Moves (ok : System → Prop) : System → System → Prop := ReflTransGen (Move ok)

/-- A rotation's delay is the configured one exactly if the outgoing key is live. -/
theorem rotation_useAfter {m m' : EncryptionManager} {roster : List MemberEvents.JoinedMembership}
    {input : RolloutInput} {p : PendingRollout}
    (h : beginRollout m roster input = (m', some p)) (rotates : p.rotating = true) :
    p.useAfterMs =
      if m.outboundKey.any fun current =>
          outgoingKeyIsLive current (m.currentParticipants roster)
      then m.config.delayBeforeUseMs else 0 := by
  unfold beginRollout at h
  cases hk : m.outboundKey with
  | none => simp [hk] at h
  | some current =>
      simp only [settleRoster_outboundKey, hk, Option.any_some] at h ⊢
      unfold decideRollout at h
      have config : (settleRoster m (m.currentParticipants roster)).config = m.config := rfl
      rw [config] at h
      cases due : rotating m.config current (m.currentParticipants roster) input.now with
      | true =>
          simp only [due, if_true, Prod.mk.injEq, Option.some.injEq] at h
          obtain ⟨-, rfl⟩ := h
          change useAfterMs m.config current (m.currentParticipants roster) input.now = _
          simp [useAfterMs, due]
      | false =>
          simp only [due, Bool.false_eq_true, if_false] at h
          split at h
          · simp at h
          · simp only [Prod.mk.injEq, Option.some.injEq] at h
            obtain ⟨-, rfl⟩ := h
            cases rotates

section Rollout
variable {ok : System → Prop}

theorem moves_idle {h : System} {b : DistributionRuns.System} (same : own b = own h.base)
    (later : h.base.clock ≤ b.clock) : Moves ok h { h with base := b } :=
  ReflTransGen.single (.idle same later)

/-- The end of a rollout that rotates: the key is stored and, with a handler, signalled. -/
theorem afterSend_moves {h : System} {p : PendingRollout}
    {reachedAll : List ParticipantDeviceInfo} {endsAt : ℕ}
    (sending : h.base.rollout = some (.sending p)) (soon : h.base.clock ≤ endsAt) :
    Moves ok h (h.afterSend p reachedAll endsAt) := by
  cases rotates : p.rotating with
  | false =>
      have same : own { h.base with
          manager := finishRollout h.base.manager p reachedAll, rollout := none } =
            own h.base := by
        simp only [own, ownOf, rotation, sending, rotates, finishRollout, Option.filter_some,
          Bool.false_eq_true, if_false, Option.filter_none, Option.map_map]
        rfl
      have eq : h.afterSend p reachedAll endsAt = { h with base := { h.base with
          manager := finishRollout h.base.manager p reachedAll, rollout := none } } := by
        simp [System.afterSend, rotates]
      rw [eq]
      exact moves_idle same (Nat.le_refl _)
  | true =>
      have here : rotation h.base = some (.sending p) := by
        simp [rotation, sending, rotates]
      cases handler : h.base.manager.signalHandler with
      | false =>
          have next : own { h.base with
              manager := finishRollout h.base.manager p reachedAll, rollout := none } =
              { own h.base with
                inPlace := some (p.key.keyIndex, p.key.key)
                rotation := none } := by
            simp only [own, ownOf, rotation, Option.map_some, Option.filter_none,
              finishRollout, rotates, if_true]
            rfl
          have eq : h.afterSend p reachedAll endsAt = { h with
              base := { h.base with
                manager := finishRollout h.base.manager p reachedAll, rollout := none }
              stored := h.newest } := by
            have silent : (finishRollout h.base.manager p reachedAll).signalHandler = false := by
              simp [finishRollout, rotates, handler]
            simp [System.afterSend, rotates, signalKeyToApp, silent]
          rw [eq]
          exact ReflTransGen.single (.store here rfl next)
      | true =>
          let signal : KeyMaterialSignal :=
            ⟨p.key.key, p.key.keyIndex, h.base.manager.ownRtcIdentity, p.useAfterMs⟩
          have next : own { h.base with
              manager := finishRollout h.base.manager p reachedAll
              rollout := some (.signalling p)
              signals := h.base.signals ++ [signal] } =
              { own h.base with
                inPlace := some (p.key.keyIndex, p.key.key)
                rotation := some (.signalling p)
                signals := h.base.signals ++ [signal] } := by
            simp only [own, ownOf, rotation, Option.map_some, Option.filter_some,
              finishRollout, rotates, if_true]
            rfl
          have eq : h.afterSend p reachedAll endsAt = { h with
              base := { h.base with
                manager := finishRollout h.base.manager p reachedAll
                rollout := some (.signalling p)
                signals := h.base.signals ++ [signal] }
              stored := h.newest
              deliveries := h.deliveries ++ [⟨h.newest, signal, endsAt⟩] } := by
            have given : signalKeyToApp (finishRollout h.base.manager p reachedAll) p.key
                p.useAfterMs = some signal := by
              simp only [signalKeyToApp, finishRollout, rotates, if_true, handler]
              rfl
            simp [System.afterSend, rotates, given, System.deliver]
          rw [eq]
          exact ReflTransGen.single (.signal here rfl soon rfl next)

theorem afterSend_of_sending (h : System) (p : PendingRollout)
    (reachedAll : List ParticipantDeviceInfo) (endsAt : ℕ) :
    { h with base := { h.base with rollout := some (.sending p) } }.afterSend p reachedAll endsAt =
      h.afterSend p reachedAll endsAt := by
  unfold System.afterSend
  dsimp only
  cases if p.rotating then
      signalKeyToApp (finishRollout h.base.manager p reachedAll) p.key p.useAfterMs
    else none with
  | none => rfl
  | some signal => rfl

/-- Up to its send a rollout mints a key or none. -/
theorem beginRollout_moves {h : System} {input : RolloutInput} {m : EncryptionManager}
    {p : PendingRollout} (lastRead : List ParticipantDeviceInfo) (sent : List KeySend)
    (free : h.base.rollout = none) (decided : input.now ≤ h.base.clock)
    (begins : beginRollout h.base.manager h.base.roster input = (m, some p)) :
    Moves ok h { h with
      base := { h.base with
        manager := m, lastRead := lastRead, rollout := some (.sending p), sent := sent }
      minted := h.minted ++ h.mints p } := by
  have spec := beginRollout_spec h.base.manager h.base.roster input
  have useAfter := rotation_useAfter begins
  rw [begins] at spec
  cases spec with
  | noKey hk hm hp => cases hp
  | nothing hk kept nobody hm hp => cases hp
  | shares hk kept waiting hm hp =>
      have calm : p.rotating = false := by rw [Option.some.inj hp]
      have same : own { h.base with
          manager := m, lastRead := lastRead, rollout := some (.sending p), sent := sent } =
          own h.base := by
        obtain rfl : m = _ := hm
        simp only [own, ownOf, rotation, free, Option.filter_some, calm, Bool.false_eq_true,
          if_false]
        rfl
      have none_minted : h.mints p = [] := by simp [System.mints, calm]
      rw [none_minted, List.append_nil]
      exact moves_idle same (Nat.le_refl _)
  | @rotates current hk due delay stillInUse hm hp =>
      have rotates : p.rotating = true := by rw [Option.some.inj hp]
      have index : p.key.keyIndex = h.base.manager.nextKeyIndex := by
        rw [Option.some.inj hp]
        rfl
      have now : p.now = input.now := by rw [Option.some.inj hp]
      have next : own { h.base with
          manager := m, lastRead := lastRead, rollout := some (.sending p), sent := sent } =
          { own h.base with
            nextKeyIndex := h.base.manager.nextKeyIndex + 1
            rotation := some (.sending p) } := by
        obtain rfl : m = _ := hm
        simp only [own, ownOf, rotation, free, Option.filter_some, rotates, if_true]
        rfl
      have one_minted : h.mints p = [⟨p.key, p.now, h.outgoingLive⟩] := by
        simp [System.mints, rotates]
      have in_place : h.base.manager.outboundKey ≠ none := by
        intro none_in_place
        rw [settleRoster_outboundKey, none_in_place] at hk
        cases hk
      rw [one_minted]
      refine ReflTransGen.single (.mint ?_ rfl index ?_ (useAfter rotates) in_place next)
      · simp [rotation, free]
      · rw [now]
        exact decided

/-- A rollout without a key in place, or with nothing to do. -/
theorem rolloutOnce_idle {h : System} {input : RolloutInput} {m : EncryptionManager}
    (lastRead : List ParticipantDeviceInfo) (free : h.base.rollout = none)
    (begins : beginRollout h.base.manager h.base.roster input = (m, none)) :
    Moves ok h { h with
      base := { h.base with manager := m, lastRead := lastRead, rollout := none } } := by
  have spec := beginRollout_spec h.base.manager h.base.roster input
  rw [begins] at spec
  have same : own { h.base with manager := m, lastRead := lastRead, rollout := none } =
      own h.base := by
    cases spec with
    | noKey hk hm hp =>
        obtain rfl : m = _ := hm
        simp only [own, rotation, free]
        rfl
    | nothing hk kept nobody hm hp =>
        obtain rfl : m = _ := hm
        simp only [own, rotation, free]
        rfl
    | rotates hk due hm hp => cases hp
    | shares hk kept waiting hm hp => cases hp
  exact moves_idle same (Nat.le_refl _)

theorem rolloutOnce_moves {h : System} {input : RolloutInput} {endsAt : ℕ}
    (free : h.base.rollout = none) (decided : input.now ≤ h.base.clock)
    (soon : h.base.clock ≤ endsAt) : Moves ok h (h.rolloutOnce input endsAt) := by
  unfold System.rolloutOnce
  cases begins : beginRollout h.base.manager h.base.roster input with
  | mk m pending =>
      cases pending with
      | none => exact rolloutOnce_idle _ free begins
      | some p =>
          dsimp only
          cases rolloutSend m p with
          | some send => exact beginRollout_moves _ _ free decided begins
          | none =>
              apply Relation.ReflTransGen.trans (beginRollout_moves
                (h.base.manager.currentParticipants h.base.roster) h.base.sent free decided begins)
              dsimp only
              rw [← afterSend_of_sending]
              exact afterSend_moves rfl soon

end Rollout

def Progress (s : DistributionRuns.System) : Prop :=
  s.manager.keyDistributionInProgress = s.rollout.isSome

theorem afterSend_clock (s : DistributionRuns.System) (p : PendingRollout)
    (reachedAll : List ParticipantDeviceInfo) : (s.afterSend p reachedAll).clock = s.clock := by
  unfold DistributionRuns.System.afterSend
  dsimp only
  split <;> rfl

theorem rolloutOnce_clock (s : DistributionRuns.System) (input : RolloutInput) :
    (s.rolloutOnce input).clock = s.clock := by
  unfold DistributionRuns.System.rolloutOnce
  cases beginRollout s.manager s.roster input with
  | mk m pending =>
      cases pending with
      | none => rfl
      | some p =>
          dsimp only
          cases rolloutSend m p with
          | none => exact afterSend_clock _ p []
          | some send => rfl

theorem clock_kept (clock : ℕ) :
    DistributionRuns.KeptByRollouts (fun s => s.clock = clock) fun _ _ => True :=
  ⟨fun _ _ h => h, fun _ _ _ _ => trivial, fun h _ => (rolloutOnce_clock _ _).trans h⟩

theorem followUp_clock (s : DistributionRuns.System) (next : RolloutInput) :
    (s.followUp next).clock = s.clock :=
  (clock_kept s.clock).followUp rfl fun _ _ => trivial

theorem ensureKeyDistribution_clock (s : DistributionRuns.System) (input : LoopInput) :
    (s.ensureKeyDistribution input).clock = s.clock :=
  (clock_kept s.clock).ensureKeyDistribution rfl (fun _ _ => trivial) fun _ _ _ => trivial

theorem onMembershipsUpdate_clock (s : DistributionRuns.System) (input : LoopInput) :
    (s.onMembershipsUpdate input).clock = s.clock := by
  unfold DistributionRuns.System.onMembershipsUpdate
  split_ifs
  · rfl
  · cases s.manager.outboundKey with
    | none => rfl
    | some key =>
        dsimp only
        split_ifs
        · cases signalKeyToApp s.manager key 0 with
          | none => exact ensureKeyDistribution_clock s input
          | some signal => rfl
        · exact ensureKeyDistribution_clock s input

theorem flushDueRotation_clock (s : DistributionRuns.System) (checkedAt : ℕ)
    (input : LoopInput) : (s.flushDueRotation checkedAt input).clock = s.clock :=
  (clock_kept s.clock).flushDueRotation rfl (fun _ _ _ _ _ => trivial) fun _ _ _ => trivial

/-- A retry does not touch the keys' material. -/
theorem beginRetry_own (m : EncryptionManager) (roster : List MemberEvents.JoinedMembership)
    (memberId : String) (r : Option RolloutPhase) (e : List OutboundEncryptionKey)
    (s : List KeyMaterialSignal) :
    ownOf (beginRetry m roster memberId).1 r e s = ownOf m r e s := by
  unfold beginRetry
  cases m.undelivered memberId with
  | none => rfl
  | some owed =>
      dsimp only
      cases m.outboundKey.filter fun k => k.keyIndex == owed.keyIndex with
      | none =>
          dsimp only
          unfold dropOwed
          split_ifs <;> rfl
      | some key =>
          dsimp only
          cases address roster owed.target with
          | none => rfl
          | some addressed => rfl

theorem finishRetry_own (m : EncryptionManager) (r : PendingRetry) (answer : SendAnswer)
    (p : Option RolloutPhase) (e : List OutboundEncryptionKey) (s : List KeyMaterialSignal) :
    ownOf (finishRetry m r answer).1 p e s = ownOf m p e s := by
  have recorded : ownOf (recordRetried m r.owed) p e s = ownOf m p e s := by
    have same : (recordRetried m r.owed).outboundKey.map (fun k => (k.keyIndex, k.key)) =
        m.outboundKey.map fun k => (k.keyIndex, k.key) := by
      rw [recordRetried, Option.map_map]
      congr 1
      funext k
      by_cases held : k.keyIndex = r.owed.keyIndex ∧ anySameJoin k.sharedWith r.owed.target = false
      · simp [held]
      · simp [held]
    rw [ownOf, same]
    rfl
  cases answer with
  | error e => rfl
  | ok deliveries =>
      simp only [finishRetry]
      split_ifs
      · rfl
      · unfold dropOwed
        split_ifs <;> exact recorded

theorem retryUndeliveredKey_frame (s : DistributionRuns.System) (memberId : String) :
    own (s.retryUndeliveredKey memberId) = own s ∧
      (s.retryUndeliveredKey memberId).clock = s.clock := by
  have frame := beginRetry_own s.manager s.roster memberId
  unfold DistributionRuns.System.retryUndeliveredKey
  cases begins : beginRetry s.manager s.roster memberId with
  | mk m result =>
      rw [begins] at frame
      cases result with
      | ended | sending => exact ⟨frame _ _ _, rfl⟩

theorem step_progress {s t : DistributionRuns.System} {a : DistributionRuns.Action}
    (progress : Progress s) (h : DistributionRuns.step s a = some t) : Progress t :=
  DistributionRuns.step_inProgress progress h

section Actions
variable {ok : System → Prop}

theorem closeLoop_moves (h : System) : Moves ok h h.closeLoop := by
  unfold System.closeLoop DistributionRuns.System.closeLoop
  cases phase : h.base.rollout with
  | some phase' => exact ReflTransGen.refl
  | none =>
      refine moves_idle ?_ (Nat.le_refl _)
      simp only [own, rotation, phase]
      rfl

theorem followUp_moves {h : System} {next : RolloutInput} {endsAt : ℕ}
    (decided : next.now ≤ h.base.clock) (soon : h.base.clock ≤ endsAt) :
    Moves ok h (h.followUp next endsAt) := by
  unfold System.followUp
  cases phase : h.base.rollout with
  | some phase' => exact ReflTransGen.refl
  | none =>
      dsimp only
      split_ifs
      · have taken : Moves ok h { h with base := { h.base with
            manager := { h.base.manager with needNewDistribution := false } } } :=
          moves_idle rfl (Nat.le_refl _)
        exact (taken.trans (rolloutOnce_moves phase decided soon)).trans (closeLoop_moves _)
      · exact closeLoop_moves h

theorem ensureKeyDistribution_moves {h : System} {input : LoopInput} {endsAt : ℕ}
    (progress : Progress h.base) (first : input.first.now ≤ h.base.clock)
    (next : input.next.now ≤ h.base.clock) (soon : h.base.clock ≤ endsAt) :
    Moves ok h (h.ensureKeyDistribution input endsAt) := by
  unfold System.ensureKeyDistribution
  split_ifs with unmanaged busy
  · exact ReflTransGen.refl
  · exact moves_idle rfl (Nat.le_refl _)
  · have free : h.base.rollout = none := by
      rw [← Option.isNone_iff_eq_none, ← Option.not_isSome, ← progress]
      simp [busy]
    have begun : Moves ok h { h with base := { h.base with
        manager := { h.base.manager with keyDistributionInProgress := true } } } :=
      moves_idle rfl (Nat.le_refl _)
    refine (begun.trans (rolloutOnce_moves free first soon)).trans ?_
    have clock : (System.rolloutOnce { h with base := { h.base with
        manager := { h.base.manager with keyDistributionInProgress := true } } }
        input.first endsAt).base.clock = h.base.clock := by
      rw [rolloutOnce_base, rolloutOnce_clock]
    exact followUp_moves (clock ▸ next) (clock ▸ soon)

theorem tick_moves {h : System} {now : ℕ} (later : h.base.clock ≤ now) :
    Moves ok h (h.tick now) := moves_idle rfl later

theorem reads_le {clock : ℕ} {input : LoopInput} (reads : input.Reads clock) :
    clock ≤ input.next.mintedAt ∧ input.first.now ≤ input.next.mintedAt ∧
      input.next.now ≤ input.next.mintedAt := by
  obtain ⟨⟨h₁, h₂⟩, h₃, h₄⟩ := reads
  omega

theorem onMembershipsUpdate_moves {h : System} {input : LoopInput} {endsAt : ℕ}
    (progress : Progress h.base) (allowed : ok h) (reads : input.Reads h.base.clock)
    (soon : input.next.mintedAt ≤ endsAt) :
    Moves ok h ((h.tick input.next.mintedAt).onMembershipsUpdate input endsAt) := by
  obtain ⟨later, first, next⟩ := reads_le reads
  have ticked : Moves ok h (h.tick input.next.mintedAt) := tick_moves later
  have ensured : Moves ok h
      ((h.tick input.next.mintedAt).ensureKeyDistribution input endsAt) :=
    ticked.trans (ensureKeyDistribution_moves progress first next soon)
  unfold System.onMembershipsUpdate
  split_ifs
  · exact ticked
  · cases inPlace : (h.tick input.next.mintedAt).base.manager.outboundKey with
    | none => exact ticked
    | some key =>
        dsimp only
        split_ifs with unsignalled
        · cases given : signalKeyToApp (h.tick input.next.mintedAt).base.manager key 0 with
          | none => exact ensured
          | some signal =>
              have given' : signal =
                  ⟨key.key, key.keyIndex, h.base.manager.ownRtcIdentity, 0⟩ := by
                unfold signalKeyToApp at given
                split_ifs at given
                exact (Option.some.inj given).symm
              have signalled := Move.eager (h := h) (b := { h.base with
                eager := h.base.eager ++ [key]
                signals := h.base.signals ++ [signal] }) inPlace allowed unsignalled rfl
                (later.trans soon) given' rfl
              exact (ReflTransGen.single signalled).trans (tick_moves later)
        · exact ensured

theorem flushDueRotation_moves {h : System} {checkedAt : ℕ} {input : LoopInput} {endsAt : ℕ}
    (progress : Progress h.base) (first : input.first.now ≤ h.base.clock)
    (next : input.next.now ≤ h.base.clock) (soon : h.base.clock ≤ endsAt) :
    Moves ok h (h.flushDueRotation checkedAt input endsAt) := by
  unfold System.flushDueRotation
  cases h.base.manager.rotationDueAt with
  | none => exact ReflTransGen.refl
  | some dueAt =>
      dsimp only
      split_ifs
      · exact ReflTransGen.refl
      · exact ensureKeyDistribution_moves progress first next soon

/-- The condition holds where an action may signal the key in place. -/
def Allows (ok : System → Prop) (h : System) : Action → Prop
  | .act (.onMembershipsUpdate _) _ => ok h
  | .replay _ => ok h
  | _ => True

theorem recordEager_moves {h : System} {key : OutboundEncryptionKey} {i atMs now : ℕ}
    (pending : h.base.eager[i]? = some key) (later : h.base.clock ≤ atMs) (soon : atMs ≤ now) :
    Moves ok h (({ h.record key h.eagerMints[i]? 0 atMs with
      base := { (h.record key h.eagerMints[i]? 0 atMs).base with
        eager := h.base.eager.eraseIdx i }
      eagerMints := h.eagerMints.eraseIdx i } : System).tick now) := by
  refine ReflTransGen.single (.recordEager pending later soon ?_)
  simp only [own, ownOf, rotation, System.record, recordSignalled]
  split_ifs <;> rfl

theorem recordRollout_moves {h : System} {p : PendingRollout} {atMs now : ℕ}
    (signalling : h.base.rollout = some (.signalling p)) (later : h.base.clock ≤ atMs)
    (soon : atMs ≤ now) :
    Moves ok h (({ h.record p.key (some h.stored) p.useAfterMs atMs with
      base := { (h.record p.key (some h.stored) p.useAfterMs atMs).base with
        rollout := none } } : System).tick now) := by
  have here : rotation h.base = some (.signalling p) := by simp [rotation, signalling]
  refine ReflTransGen.single (.recordRollout here later soon ?_)
  simp only [own, ownOf, rotation, System.record, recordSignalled]
  split_ifs <;> rfl

/-- Every step is a chain of moves. -/
theorem step_moves {h t : System} {a : Action} (progress : Progress h.base)
    (allowed : Allows ok h a) (taken : step h a = some t) : Moves ok h t := by
  cases a with
  | replay now =>
      simp only [step, Option.ite_none_right_eq_some, Option.some.injEq] at taken
      obtain ⟨later, rfl⟩ := taken
      unfold System.replay
      cases given : (replayKeysToHandler h.base.manager h.base.roster now).1 with
      | none => exact tick_moves later
      | some signal =>
          have own_key : replayOwnKey h.base.manager now = some signal := by
            unfold replayKeysToHandler at given
            split_ifs at given
            exact given
          have replayed := Move.replay (h := h) (b := { h.base with
            signals := h.base.signals ++ [signal] }) own_key allowed later rfl rfl
          exact (ReflTransGen.single replayed).trans (tick_moves later)
  | act action endsAt =>
      obtain ⟨u, acted, ends⟩ := Option.bind_eq_some_iff.mp taken
      simp only [Option.ite_none_right_eq_some, Option.some.injEq] at ends
      obtain ⟨soon, rfl⟩ := ends
      refine ReflTransGen.trans ?_ (tick_moves soon)
      cases action with
      | setRoster roster =>
          cases acted
          exact moves_idle rfl (Nat.le_refl _)
      | onMembershipsUpdate input =>
          simp only [act, Option.ite_none_right_eq_some, Option.some.injEq] at acted
          obtain ⟨reads, rfl⟩ := acted
          rw [onMembershipsUpdate_base, onMembershipsUpdate_clock] at soon
          exact onMembershipsUpdate_moves progress allowed reads soon
      | eagerSignalled i atMs input =>
          simp only [act] at acted
          split at acted
          · cases acted
          · rename_i key pending
            simp only [Option.ite_none_right_eq_some, Option.some.injEq] at acted
            obtain ⟨⟨later, reads⟩, rfl⟩ := acted
            obtain ⟨ends, first, next⟩ := reads_le reads
            rw [ensureKeyDistribution_base, ensureKeyDistribution_clock] at soon
            refine (recordEager_moves pending later ends).trans ?_
            refine ensureKeyDistribution_moves ?_ first next soon
            have same := DistributionRuns.recordSignalled_flags h.base.manager key 0 atMs
            exact (congrArg Prod.fst same).trans progress
      | flushDueRotation checkedAt input =>
          simp only [act, Option.ite_none_right_eq_some, Option.some.injEq] at acted
          obtain ⟨⟨later, reads⟩, rfl⟩ := acted
          obtain ⟨ends, first, next⟩ := reads_le reads
          rw [flushDueRotation_base, flushDueRotation_clock] at soon
          have ticked : Moves ok h (h.tick input.next.mintedAt) := tick_moves (later.trans ends)
          exact ticked.trans (flushDueRotation_moves progress first next soon)
      | rolloutAnswered answer next =>
          simp only [act] at acted
          split at acted
          · rename_i p sending
            simp only [Option.ite_none_right_eq_some, Option.some.injEq] at acted
            obtain ⟨reads, rfl⟩ := acted
            obtain ⟨later, minted⟩ := reads
            rw [followUp_base, afterSend_base, followUp_clock, afterSend_clock] at soon
            have ticked : Moves ok h (h.tick next.mintedAt) := tick_moves (later.trans minted)
            refine (ticked.trans (afterSend_moves sending soon)).trans (followUp_moves ?_ ?_)
            · rw [afterSend_base, afterSend_clock]
              exact minted
            · rw [afterSend_base, afterSend_clock]
              exact soon
          · cases acted
      | rolloutSignalled atMs next =>
          simp only [act] at acted
          split at acted
          · rename_i p signalling
            simp only [Option.ite_none_right_eq_some, Option.some.injEq] at acted
            obtain ⟨⟨later, reads⟩, rfl⟩ := acted
            obtain ⟨decided, minted⟩ := reads
            rw [followUp_base, followUp_clock] at soon
            refine (recordRollout_moves signalling later (decided.trans minted)).trans ?_
            exact followUp_moves minted soon
          · cases acted
      | retryUndeliveredKey memberId =>
          cases acted
          obtain ⟨same, clock⟩ := retryUndeliveredKey_frame h.base memberId
          exact moves_idle same clock.ge
      | retryAnswered i answer =>
          simp only [act] at acted
          split at acted
          · cases acted
          · rename_i r pending
            cases acted
            exact moves_idle (finishRetry_own h.base.manager r answer _ _ _) (Nat.le_refl _)

end Actions

theorem start_progress (setup : Setup) (roster : List MemberEvents.JoinedMembership)
    (key : List UInt8) (now : ℕ) : Progress (start setup roster key now).base := by
  unfold Progress start DistributionRuns.start EncryptionManager.join
  dsimp only
  split_ifs <;> rfl

theorem keep_progress {h t : System} {a : Action} (progress : Progress h.base)
    (taken : step h a = some t) : Progress t.base := by
  cases a with
  | replay now =>
      simp only [step, Option.ite_none_right_eq_some, Option.some.injEq] at taken
      rw [← taken.2]
      unfold System.replay
      cases (replayKeysToHandler h.base.manager h.base.roster now).1 with
      | none => exact progress
      | some signal => exact progress
  | act action endsAt =>
      obtain ⟨v, acted, ends⟩ := Option.bind_eq_some_iff.mp taken
      simp only [Option.ite_none_right_eq_some, Option.some.injEq] at ends
      rw [← ends.2]
      have kept : Progress v.base := step_progress progress (act_base acted)
      exact kept

theorem moves_keep {ok I : System → Prop} (keep : ∀ h t, Move ok h t → I h → I t) {h t : System}
    (moves : Moves ok h t) (inv : I h) : I t := by
  induction moves with
  | refl => exact inv
  | tail _ last ih => exact keep _ _ last ih

theorem run_history {ok I : System → Prop} (keep : ∀ h t, Move ok h t → I h → I t)
    {setup : Setup} {roster : List MemberEvents.JoinedMembership} {key : List UInt8} {now : ℕ}
    (first : I (start setup roster key now)) {as : List Action} {t : System}
    (allowed : Admissible step (Allows ok) (start setup roster key now) as)
    (h : run step (start setup roster key now) as = some t) : I t := by
  have inv : I t ∧ Progress t.base := by
    apply run_invariant (I := fun h => I h ∧ Progress h.base) _ _ allowed h
    · intro h a u inv allows taken
      constructor
      · exact moves_keep keep (step_moves inv.2 allows taken) inv.1
      · exact keep_progress inv.2 taken
    · exact ⟨first, start_progress setup roster key now⟩
  exact inv.1

theorem allows_all (h : System) (a : Action) : Allows (fun _ => True) h a := by
  cases a with
  | replay now => exact trivial
  | act action endsAt =>
      cases action with
      | onMembershipsUpdate input => exact trivial
      | _ => exact trivial

end MatrixRtc.SignalHistory

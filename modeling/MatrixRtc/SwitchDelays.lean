import MatrixRtc.MintedKeys

/-!
# The delay before use

A rotation away from a key that someone present holds is signalled with the configured
delay. The same key may be signalled again, eagerly or by a replay, before its own
signal was recorded: then nothing tells that its delay is still running. Runs in which
the key in place is signalled again only when its delay is over, or its own signal is
the one recorded, never bypass the delay.
-/
namespace MatrixRtc.SwitchDelays
open EncryptionManagers KeyRollout InboundKeys StepRuns OwnKeySignals SignalHistory MintedKeys

/-- The signal leaves the key at least what is left of its rotation's delay. -/
def Timely (delay : ℕ) (mint : Mint) (useAfterMs at' : ℕ) : Prop :=
  mint.live = true → delay - (at' - mint.rotatedAt) ≤ useAfterMs

instance (delay : ℕ) (mint : Mint) (useAfterMs at' : ℕ) :
    Decidable (Timely delay mint useAfterMs at') :=
  inferInstanceAs (Decidable (_ → _))

/-- No signal of an own key bypassed the delay of the rotation that minted it. -/
def NeverBypassed (h : System) : Prop :=
  ∀ d ∈ h.deliveries, ∀ mint ∈ h.minted[d.mint]?,
    Timely h.base.manager.config.delayBeforeUseMs mint d.signal.useAfterMs d.deliveredAt

instance (h : System) : Decidable (NeverBypassed h) :=
  inferInstanceAs (Decidable (∀ d ∈ h.deliveries, ∀ mint ∈ h.minted[d.mint]?, _))

/-- The delay of the key in place is over, or its own signal is the one recorded. -/
def Covered (h : System) : Prop :=
  ∀ mint ∈ h.minted[h.stored]?, mint.live = true →
    mint.rotatedAt + h.base.manager.config.delayBeforeUseMs ≤ h.base.clock ∨
      h.recorded = some h.stored

instance : DecidablePred Covered := fun h =>
  inferInstanceAs (Decidable (∀ mint ∈ h.minted[h.stored]?, mint.live = true → _))

instance (h : System) : DecidablePred (Allows Covered h)
  | .replay _ => inferInstanceAs (Decidable (Covered h))
  | .act (.onMembershipsUpdate _) _ => inferInstanceAs (Decidable (Covered h))
  | .act (.setRoster _) _ | .act (.eagerSignalled _ _ _) _ | .act (.flushDueRotation _ _) _
  | .act (.rolloutAnswered _ _) _ | .act (.rolloutSignalled _ _) _
  | .act (.retryUndeliveredKey _) _ | .act (.retryAnswered _ _) _ => isTrue trivial

/-- What is being signalled or recorded leaves the delays alone. -/
structure Delays (delay : ℕ) (h : System) (o : Own) : Prop where
  deliveries : ∀ d ∈ h.deliveries, ∀ mint ∈ h.minted[d.mint]?,
    Timely delay mint d.signal.useAfterMs d.deliveredAt
  sending : ∀ p, o.rotation = some (.sending p) → ∀ mint ∈ h.minted[h.newest]?,
    mint.live = true → delay ≤ p.useAfterMs
  signalling : ∀ p, o.rotation = some (.signalling p) → ∀ mint ∈ h.minted[h.stored]?,
    mint.live = true → delay ≤ p.useAfterMs
  eager : ∀ n ∈ h.eagerMints, n < h.minted.length ∧ ∀ mint ∈ h.minted[n]?,
    mint.live = true → mint.rotatedAt + delay ≤ h.base.clock
  recorded : ∀ s n, o.signalledKey = some s → h.recorded = some n → ∀ mint ∈ h.minted[n]?,
    Timely delay mint s.useAfterMs s.atMs

theorem timely_of_le {delay useAfterMs at' : ℕ} {mint : Mint}
    (h : mint.live = true → delay ≤ useAfterMs) : Timely delay mint useAfterMs at' := by
  intro live
  have := h live
  omega

theorem timely_of_over {delay useAfterMs at' : ℕ} {mint : Mint}
    (h : mint.live = true → mint.rotatedAt + delay ≤ at') :
    Timely delay mint useAfterMs at' := by
  intro live
  have := h live
  omega

theorem mem_of_append {minted : List Mint} {new mint : Mint} {k : ℕ} (lt : k < minted.length)
    (h : mint ∈ (minted ++ [new])[k]?) : mint ∈ minted[k]? := by
  rcases ListPlaces.of_append h with old | ⟨rfl, -⟩
  · exact old
  · exact absurd lt (Nat.lt_irrefl _)

section Moves
variable {setup : Setup} {h : System} {b : DistributionRuns.System} {delay : ℕ}

theorem Delays.idle (inv : Delays delay h (own h.base)) (same : own b = own h.base)
    (later : h.base.clock ≤ b.clock) : Delays delay { h with base := b } (own b) := by
  rw [same]
  constructor
  · exact inv.deliveries
  · exact inv.sending
  · exact inv.signalling
  · intro n pending
    obtain ⟨lt, elapsed⟩ := inv.eager n pending
    exact ⟨lt, fun mint minted live => (elapsed mint minted live).trans later⟩
  · exact inv.recorded

theorem Delays.mint {p : PendingRollout} (inv : Delays delay h (own h.base))
    (fits : History setup h (own h.base)) (later : h.base.clock = b.clock)
    (useAfter : h.outgoingLive = true → delay ≤ p.useAfterMs)
    (next : own b = { own h.base with
      nextKeyIndex := h.base.manager.nextKeyIndex + 1
      rotation := some (.sending p) }) :
    Delays delay { h with
      base := b, minted := h.minted ++ [⟨p.key, p.now, h.outgoingLive⟩] } (own b) := by
  rw [next]
  constructor
  · intro d delivered mint minted
    obtain ⟨lt, -, -, -⟩ := fits.deliveries d delivered
    exact inv.deliveries d delivered mint (mem_of_append lt minted)
  · intro q sending mint minted live
    cases sending
    have newest : (h.minted ++ ([⟨p.key, p.now, h.outgoingLive⟩] : List Mint)).length - 1 =
        h.minted.length := by simp
    rw [System.newest, newest] at minted
    rcases ListPlaces.of_append minted with old | ⟨-, rfl⟩
    · exact absurd (List.getElem?_eq_some_iff.mp old).1 (Nat.lt_irrefl _)
    · exact useAfter live
  · intro q signalling
    cases signalling
  · intro n pending
    obtain ⟨lt, elapsed⟩ := inv.eager n pending
    constructor
    · rw [List.length_append]
      exact Nat.lt_add_right _ lt
    · intro mint minted live
      exact (elapsed mint (mem_of_append lt minted) live).trans later.le
  · intro s n signalled recorded mint minted
    obtain ⟨n', recorded', lt, -⟩ := fits.recorded s signalled
    cases recorded.symm.trans recorded'
    exact inv.recorded s n signalled recorded mint (mem_of_append lt minted)

/-- The key is stored, and signalled with the delay of its rotation. -/
theorem Delays.store {p : PendingRollout} {after : Option DistributionRuns.RolloutPhase}
    {signals : List KeyMaterialSignal} {more : List Delivery}
    (inv : Delays delay h (own h.base))
    (sending : SignalHistory.rotation h.base = some (.sending p))
    (later : h.base.clock = b.clock) (phase : ∀ q, after ≠ some (.sending q))
    (given : ∀ q, after = some (.signalling q) → q = p)
    (delivered : ∀ d ∈ more, d.mint = h.newest ∧ d.signal.useAfterMs = p.useAfterMs)
    (next : own b = { own h.base with
      inPlace := some (p.key.keyIndex, p.key.key), rotation := after, signals := signals }) :
    Delays delay { h with
      base := b, stored := h.newest, deliveries := h.deliveries ++ more } (own b) := by
  have enough := inv.sending p sending
  rw [next]
  constructor
  · intro d member mint minted
    rcases List.mem_append.mp member with earlier | new
    · exact inv.deliveries d earlier mint minted
    · obtain ⟨newest, useAfter⟩ := delivered d new
      rw [newest] at minted
      rw [useAfter]
      exact timely_of_le (enough mint minted)
  · intro q sending'
    exact absurd sending' (phase q)
  · intro q signalling
    obtain rfl := given q signalling
    exact enough
  · intro n pending
    obtain ⟨lt, elapsed⟩ := inv.eager n pending
    exact ⟨lt, fun mint minted live => (elapsed mint minted live).trans later.le⟩
  · exact inv.recorded

theorem Delays.record {s : SignalledKey} {n : ℕ} {eagerMints : List ℕ}
    {eager : List OutboundEncryptionKey} {after : Option DistributionRuns.RolloutPhase}
    {handler : Bool} (inv : Delays delay h (own h.base)) (later : h.base.clock ≤ b.clock)
    (phase : after = none ∨ after = SignalHistory.rotation h.base)
    (kept : ∀ n ∈ eagerMints, n ∈ h.eagerMints)
    (timely : ∀ mint ∈ h.minted[n]?, Timely delay mint s.useAfterMs s.atMs)
    (next : own b = { own h.base with
      signalledKey := if handler then some s else h.base.manager.signalledKey
      rotation := after
      eager := eager }) :
    Delays delay { h with
      base := b, recorded := if handler then some n else h.recorded
      eagerMints := eagerMints } (own b) := by
  rw [next]
  constructor
  · exact inv.deliveries
  · intro q sending
    rcases phase with rfl | rfl
    · cases sending
    · exact inv.sending q sending
  · intro q signalling
    rcases phase with rfl | rfl
    · cases signalling
    · exact inv.signalling q signalling
  · intro n pending
    obtain ⟨lt, elapsed⟩ := inv.eager n (kept n pending)
    exact ⟨lt, fun mint minted live => (elapsed mint minted live).trans later⟩
  · intro s' n' signalled recorded
    cases handler with
    | false => exact inv.recorded s' n' signalled recorded
    | true =>
        cases signalled
        cases recorded
        exact timely

/-- The key in place is signalled again, without bypassing its delay. -/
theorem Delays.again {signal : KeyMaterialSignal} {at' : ℕ} {eagerMints : List ℕ}
    {eager : List OutboundEncryptionKey} {signals : List KeyMaterialSignal}
    (inv : Delays delay h (own h.base)) (later : h.base.clock = b.clock)
    (timely : ∀ mint ∈ h.minted[h.stored]?, Timely delay mint signal.useAfterMs at')
    (kept : ∀ n ∈ eagerMints, n ∈ h.eagerMints ∨ n < h.minted.length ∧
      ∀ mint ∈ h.minted[n]?, mint.live = true → mint.rotatedAt + delay ≤ h.base.clock)
    (next : own b = { own h.base with eager := eager, signals := signals }) :
    Delays delay { h with
      base := b, eagerMints := eagerMints
      deliveries := h.deliveries ++ [⟨h.stored, signal, at'⟩] } (own b) := by
  rw [next]
  constructor
  · intro d member mint minted
    rcases List.mem_append.mp member with earlier | new
    · exact inv.deliveries d earlier mint minted
    · cases List.mem_singleton.mp new
      exact timely mint minted
  · exact inv.sending
  · exact inv.signalling
  · intro n pending
    rcases kept n pending with old | ⟨lt, elapsed⟩
    · obtain ⟨lt, elapsed⟩ := inv.eager n old
      exact ⟨lt, fun mint minted live => (elapsed mint minted live).trans later.le⟩
    · exact ⟨lt, fun mint minted live => (elapsed mint minted live).trans later.le⟩
  · exact inv.recorded

end Moves

/-- What `signalled_key` says where the own signal of the key in place is recorded. -/
theorem signalled_of_recorded {setup : Setup} {h : System} {key : OutboundEncryptionKey}
    (fits : History setup h (own h.base)) (in_place : h.base.manager.outboundKey = some key)
    (recorded : h.recorded = some h.stored) :
    ∃ s, h.base.manager.signalledKey = some s ∧ s.keyIndex = key.keyIndex ∧
      s.atMs ≤ h.base.clock ∧
        ∀ mint ∈ h.minted[h.stored]?, mint.rotatedAt ≤ s.atMs := by
  obtain ⟨-, index⟩ := fits.stored (key.keyIndex, key.key) (by simp [own, ownOf, in_place])
  cases signalled : h.base.manager.signalledKey with
  | none =>
      rw [fits.unrecorded signalled] at recorded
      cases recorded
  | some s =>
      obtain ⟨n, eq, -, -, index', before, after⟩ := fits.recorded s signalled
      cases recorded.symm.trans eq
      exact ⟨s, rfl, index'.trans index.symm, before, after⟩

theorem delays_move {setup : Setup} {h t : System} (move : Move Covered h t)
    (fits : History setup h (own h.base))
    (inv : Delays setup.config.delayBeforeUseMs h (own h.base)) :
    Delays setup.config.delayBeforeUseMs t (own t.base) := by
  have config : h.base.manager.config = setup.config :=
    congrArg Setup.config fits.setup_eq
  cases move with
  | idle same later => exact inv.idle same later
  | mint free later index decided useAfter some_key next =>
      refine inv.mint fits later ?_ next
      intro live
      rw [useAfter, live, config]
      exact Nat.le_refl _
  | @store b p sending later next =>
      have nothing : ∀ d ∈ ([] : List Delivery), d.mint = h.newest ∧
          d.signal.useAfterMs = p.useAfterMs := by simp
      have stored := inv.store sending later (by simp) (by simp) nothing next
      rw [List.append_nil] at stored
      exact stored
  | @signal b p signal endsAt sending later soon given next =>
      refine inv.store sending later (by simp) ?_ ?_ next
      · intro q same
        cases same
        rfl
      · intro d new
        cases List.mem_singleton.mp new
        rw [given]
        exact ⟨rfl, rfl⟩
  | @recordRollout b p atMs signalling later soon next =>
      refine inv.record (later.trans soon) (Or.inl rfl) (fun _ member => member) ?_ next
      intro mint minted
      exact timely_of_le (inv.signalling p signalling mint minted)
  | @eager b key signal endsAt inPlace allowed unsignalled later soon given next =>
      -- the own signal of the key is not recorded, or this one would not be made
      have elapsed : ∀ mint ∈ h.minted[h.stored]?, mint.live = true →
          mint.rotatedAt + setup.config.delayBeforeUseMs ≤ h.base.clock := by
        intro mint minted live
        rcases allowed mint minted live with elapsed | recorded
        · rw [← config]
          exact elapsed
        · obtain ⟨s, signalled, index, -, -⟩ := signalled_of_recorded fits inPlace recorded
          exact absurd (by rw [signalled, Option.map_some, index]) unsignalled
      obtain ⟨lt, -⟩ := fits.stored (key.keyIndex, key.key) (by simp [own, ownOf, inPlace])
      refine inv.again later ?_ ?_ next
      · intro mint minted
        apply timely_of_over
        intro live
        have := elapsed mint minted live
        omega
      · intro n pending
        rcases List.mem_append.mp pending with old | new
        · exact Or.inl old
        · cases List.mem_singleton.mp new
          exact Or.inr ⟨lt, elapsed⟩
  | @recordEager b key i atMs pending later soon next =>
      have length : h.eagerMints.length = h.base.eager.length := fits.eager_length
      have bound := (List.getElem?_eq_some_iff.mp pending).1
      have mint : h.eagerMints[i]? = some h.eagerMints[i] := List.getElem?_eq_getElem (by omega)
      obtain ⟨-, elapsed⟩ := inv.eager _ (List.mem_of_getElem? mint)
      rw [mint]
      refine inv.record (later.trans soon) (Or.inr rfl) ?_ ?_ next
      · intro n member
        exact List.mem_of_mem_eraseIdx member
      · intro mint minted
        apply timely_of_over
        intro live
        exact (elapsed mint minted live).trans later
  | @replay b signal now given allowed later soon next =>
      obtain ⟨key, in_place, -, -⟩ := replayOwnKey_eq_some given
      refine inv.again soon.symm ?_ (fun n pending => Or.inl pending) next
      intro mint minted live
      rcases allowed mint minted live with elapsed | recorded
      · rw [config] at elapsed
        omega
      · obtain ⟨s, signalled, index, before, after⟩ := signalled_of_recorded fits in_place recorded
        have left : signal.useAfterMs = s.useAfterMs - (now - s.atMs) := by
          simp only [replayOwnKey, in_place, signalled, Option.map_some, Option.filter_some, index,
            beq_self_eq_true, if_true, Option.some.injEq] at given
          rw [← given]
        have enough := inv.recorded s h.stored signalled recorded mint minted live
        have order := after mint minted
        omega

theorem start_delays (delay : ℕ) (setup : Setup) (roster : List MemberEvents.JoinedMembership)
    (key : List UInt8) (now : ℕ) :
    Delays delay (start setup roster key now) (own (start setup roster key now).base) := by
  have unsignalled : (start setup roster key now).base.manager.signalledKey = none := by
    unfold start DistributionRuns.start EncryptionManager.join
    dsimp only
    split_ifs <;> rfl
  constructor
  · intro d delivered
    cases delivered
  · intro p sending
    cases sending
  · intro p signalling
    cases signalling
  · intro n pending
    cases pending
  · intro s n signalled
    cases unsignalled.symm.trans signalled

/-- The delay before use is never bypassed in a run that signals the key in place
outside its rotation only where its delay is covered. -/
theorem delay_never_bypassed (setup : Setup) (roster : List MemberEvents.JoinedMembership)
    (firstKey : List UInt8) (joinedAt : ℕ) (as : List Action) {t : System}
    (covered : Admissible step (Allows Covered) (start setup roster firstKey joinedAt) as)
    (h : run step (start setup roster firstKey joinedAt) as = some t) : NeverBypassed t := by
  have inv : History setup t (own t.base) ∧
      Delays setup.config.delayBeforeUseMs t (own t.base) := by
    apply run_history (I := fun h => History setup h (own h.base) ∧
      Delays setup.config.delayBeforeUseMs h (own h.base)) _ _ covered h
    · intro h u move inv
      exact ⟨history_move move inv.1, delays_move move inv.1 inv.2⟩
    · exact ⟨start_history setup roster firstKey joinedAt, start_delays _ _ _ _ _⟩
  have config : t.base.manager.config = setup.config := congrArg Setup.config inv.1.setup_eq
  intro d delivered mint minted
  rw [config]
  exact inv.2.deliveries d delivered mint minted

section Runs

/-- Alice with a handler installed throughout. -/
def listening : Setup := { alice with signalHandler := true }

/-- Carol's membership in the concrete runs. -/
def carol : MemberEvents.JoinedMembership :=
  { callMembership "@carol:x" "C" "carol" "carol" with membershipTs := some 2 }

/-- Bob is served the first key; Carol joins when it is no longer fresh, and the
rotation her join makes is signalled with the delay. -/
def rotated : List Action :=
  [.act (.onMembershipsUpdate (DistributionRuns.inputAt 0)) 0,
    .act (.eagerSignalled 0 0 (DistributionRuns.inputAt 0)) 0,
    .act (.rolloutAnswered (.ok [.sent ⟨"@bob:x", "B"⟩]) (DistributionRuns.inputAt 0).next) 0,
    .act (.setRoster [bob, carol]) 20000,
    .act (.onMembershipsUpdate (DistributionRuns.inputAt 20000)) 20000,
    .act (.rolloutAnswered (.ok [.sent ⟨"@bob:x", "B"⟩, .sent ⟨"@carol:x", "C"⟩])
      (DistributionRuns.inputAt 20000).next) 20000]

/-- The handler has returned before the next membership update and the replay. -/
theorem rotated_not_bypassed : ∃ t,
    run step (start listening [bob] [1] 0) (rotated ++
      [.act (.rolloutSignalled 20001 (DistributionRuns.inputAt 20001).next) 20001,
        .act (.onMembershipsUpdate (DistributionRuns.inputAt 21000)) 21000, .replay 22000]) =
      some t ∧ NeverBypassed t := by
  refine ⟨_, rfl, ?_⟩
  exact delay_never_bypassed listening [bob] [1] 0 (rotated ++
    [.act (.rolloutSignalled 20001 (DistributionRuns.inputAt 20001).next) 20001,
      .act (.onMembershipsUpdate (DistributionRuns.inputAt 21000)) 21000, .replay 22000])
    (by decide) rfl

/-- The next membership update runs while the handler is taking the signal. -/
theorem not_always_unbypassed : ¬ ∀ (setup : Setup) (roster : List MemberEvents.JoinedMembership)
    (firstKey : List UInt8) (joinedAt : ℕ) (as : List Action) (t : System),
    setup.signalHandler = true → run step (start setup roster firstKey joinedAt) as = some t →
      NeverBypassed t := by
  intro always
  have broken := always listening [bob] [1] 0
    (rotated ++ [.act (.onMembershipsUpdate (DistributionRuns.inputAt 20000)) 20000]) _ rfl rfl
  revert broken
  decide

end Runs

end MatrixRtc.SwitchDelays

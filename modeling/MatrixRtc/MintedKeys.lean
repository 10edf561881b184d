import MatrixRtc.ListPlaces
import MatrixRtc.SignalHistory

/-!
# Keys by the order they were minted in

The index of an own key is its place in the order, as far as a byte tells places
apart. What is in place, being stored, being signalled or recorded as signalled is
always a key of that order, and none is ever taken back for an older one.
-/
namespace MatrixRtc.MintedKeys
open EncryptionManagers KeyRollout InboundKeys StepRuns OwnKeySignals SignalHistory

theorem ownRtcIdentity_of_setup {m n : EncryptionManager} (h : m.setup = n.setup) :
    m.ownRtcIdentity = n.ownRtcIdentity := by
  have user := congrArg Setup.ownUserId h
  have device := congrArg Setup.ownDeviceId h
  have member := congrArg Setup.ownMemberId h
  have mapper := congrArg Setup.identityMapper h
  have transports := congrArg Setup.ownTransports h
  simp only [EncryptionManager.setup] at user device member mapper transports
  simp only [EncryptionManager.ownRtcIdentity, EncryptionManager.ownRtcBackendIdentity, user,
    device, member, mapper, transports]

/-- Our identity, which no step changes. -/
def ownIdentity (setup : Setup) : String := (EncryptionManager.new setup).ownRtcIdentity

/-- The index of the key minted as number `k`, the first being number 0. -/
def indexOf (k : ℕ) : UInt8 := UInt8.ofNat k

theorem indexOf_succ (k : ℕ) : indexOf k + 1 = indexOf (k + 1) := by
  simp [indexOf, UInt8.ofNat_add]

/-- The history fits what the program has of its own keys. -/
structure History (setup : Setup) (h : System) (o : Own) : Prop where
  setup_eq : o.setup = setup
  minted : ∀ k mint, h.minted[k]? = some mint →
    mint.key.keyIndex = indexOf k ∧ mint.rotatedAt ≤ h.base.clock
  counter : o.nextKeyIndex = indexOf h.minted.length
  stored : ∀ key, o.inPlace = some key → h.stored < h.minted.length ∧ key.1 = indexOf h.stored
  sending : ∀ p, o.rotation = some (.sending p) →
    h.stored < h.newest ∧ h.newest < h.minted.length ∧ p.key.keyIndex = indexOf h.newest
  signalling : ∀ p, o.rotation = some (.signalling p) →
    h.stored < h.minted.length ∧ p.key.keyIndex = indexOf h.stored
  eager_length : h.eagerMints.length = o.eager.length
  eager : ∀ (i n : ℕ) (key : OutboundEncryptionKey), h.eagerMints[i]? = some n →
    o.eager[i]? = some key → n < h.minted.length ∧ n ≤ h.stored ∧ key.keyIndex = indexOf n
  recorded : ∀ s, o.signalledKey = some s → ∃ n, h.recorded = some n ∧ n < h.minted.length ∧
    n ≤ h.stored ∧ s.keyIndex = indexOf n ∧ s.atMs ≤ h.base.clock ∧
      ∀ mint, h.minted[n]? = some mint → mint.rotatedAt ≤ s.atMs
  unrecorded : o.signalledKey = none → h.recorded = none
  deliveries : ∀ d ∈ h.deliveries, d.mint < h.minted.length ∧ d.mint ≤ h.stored ∧
    d.signal.keyIndex = indexOf d.mint ∧ d.signal.rtcBackendIdentity = ownIdentity setup

section Moves
variable {setup : Setup} {h : System} {b : DistributionRuns.System}

theorem History.idle (inv : History setup h (own h.base)) (same : own b = own h.base)
    (later : h.base.clock ≤ b.clock) : History setup { h with base := b } (own b) := by
  rw [same]
  constructor
  · exact inv.setup_eq
  · intro k mint minted
    obtain ⟨index, before⟩ := inv.minted k mint minted
    exact ⟨index, before.trans later⟩
  · exact inv.counter
  · exact inv.stored
  · exact inv.sending
  · exact inv.signalling
  · exact inv.eager_length
  · exact inv.eager
  · intro s signalled
    obtain ⟨n, recorded, minted, old, index, before, after⟩ := inv.recorded s signalled
    exact ⟨n, recorded, minted, old, index, before.trans later, after⟩
  · exact inv.unrecorded
  · exact inv.deliveries

theorem History.mint {p : PendingRollout} (inv : History setup h (own h.base))
    (later : h.base.clock = b.clock) (index : p.key.keyIndex = h.base.manager.nextKeyIndex)
    (decided : p.now ≤ b.clock) (some_key : h.base.manager.outboundKey ≠ none)
    (next : own b = { own h.base with
      nextKeyIndex := h.base.manager.nextKeyIndex + 1
      rotation := some (.sending p) }) :
    History setup { h with
      base := b, minted := h.minted ++ [⟨p.key, p.now, h.outgoingLive⟩] } (own b) := by
  have counter : h.base.manager.nextKeyIndex = indexOf h.minted.length := inv.counter
  have stored_lt : h.stored < h.minted.length := by
    obtain ⟨key, in_place⟩ := Option.ne_none_iff_exists'.mp some_key
    exact (inv.stored (key.keyIndex, key.key) (by simp [own, ownOf, in_place])).1
  have newest : (h.minted ++ ([⟨p.key, p.now, h.outgoingLive⟩] : List Mint)).length =
      h.minted.length + 1 := List.length_append
  rw [next]
  constructor
  · exact inv.setup_eq
  · intro k mint minted
    rcases ListPlaces.of_append minted with old | ⟨rfl, rfl⟩
    · obtain ⟨index, before⟩ := inv.minted k mint old
      exact ⟨index, before.trans later.le⟩
    · exact ⟨index.trans counter, decided⟩
  · change h.base.manager.nextKeyIndex + 1 = _
    rw [newest, counter, indexOf_succ]
  · intro key in_place
    obtain ⟨lt, eq⟩ := inv.stored key in_place
    exact ⟨by rw [newest]; exact Nat.lt_succ_of_lt lt, eq⟩
  · intro q sending
    cases sending
    refine ⟨?_, ?_, ?_⟩
    · rw [System.newest, newest]
      exact stored_lt
    · rw [System.newest, newest]
      exact Nat.lt_succ_self _
    · rw [System.newest, newest, index, counter]
      rfl
  · intro q signalling
    cases signalling
  · exact inv.eager_length
  · intro i n key pending taken
    obtain ⟨lt, old, eq⟩ := inv.eager i n key pending taken
    exact ⟨by rw [newest]; omega, old, eq⟩
  · intro s signalled
    obtain ⟨n, recorded, lt, old, eq, before, after⟩ := inv.recorded s signalled
    refine ⟨n, recorded, by rw [newest]; omega, old, eq, before.trans later.le, ?_⟩
    intro mint minted
    rcases ListPlaces.of_append minted with minted | ⟨rfl, -⟩
    · exact after mint minted
    · exact absurd lt (Nat.lt_irrefl _)
  · exact inv.unrecorded
  · intro d delivered
    obtain ⟨lt, old, eq, identity⟩ := inv.deliveries d delivered
    exact ⟨by rw [newest]; omega, old, eq, identity⟩

/-- The key being distributed is stored, and may be signalled. -/
theorem History.store {p : PendingRollout} {after : Option DistributionRuns.RolloutPhase}
    {signals : List KeyMaterialSignal} {more : List Delivery}
    (inv : History setup h (own h.base))
    (sending : SignalHistory.rotation h.base = some (.sending p))
    (later : h.base.clock = b.clock) (phase : ∀ q, after ≠ some (.sending q))
    (given : ∀ q, after = some (.signalling q) → q = p)
    (delivered : ∀ d ∈ more, d.mint = h.newest ∧ d.signal.keyIndex = p.key.keyIndex ∧
      d.signal.rtcBackendIdentity = h.base.manager.ownRtcIdentity)
    (next : own b = { own h.base with
      inPlace := some (p.key.keyIndex, p.key.key), rotation := after, signals := signals }) :
    History setup { h with
      base := b, stored := h.newest, deliveries := h.deliveries ++ more } (own b) := by
  obtain ⟨newer, lt, index⟩ := inv.sending p sending
  rw [next]
  constructor
  · exact inv.setup_eq
  · intro k mint minted
    obtain ⟨index, before⟩ := inv.minted k mint minted
    exact ⟨index, before.trans later.le⟩
  · exact inv.counter
  · intro key in_place
    cases in_place
    exact ⟨lt, index⟩
  · intro q sending'
    exact absurd sending' (phase q)
  · intro q signalling
    obtain rfl := given q signalling
    exact ⟨lt, index⟩
  · exact inv.eager_length
  · intro i n key pending taken
    obtain ⟨minted, old, eq⟩ := inv.eager i n key pending taken
    exact ⟨minted, old.trans newer.le, eq⟩
  · intro s signalled
    obtain ⟨n, recorded, minted, old, eq, before, after⟩ := inv.recorded s signalled
    exact ⟨n, recorded, minted, old.trans newer.le, eq, before.trans later.le, after⟩
  · exact inv.unrecorded
  · intro d member
    rcases List.mem_append.mp member with earlier | new
    · obtain ⟨minted, old, eq, identity⟩ := inv.deliveries d earlier
      exact ⟨minted, old.trans newer.le, eq, identity⟩
    · obtain ⟨mint, eq, identity⟩ := delivered d new
      refine ⟨mint ▸ lt, mint.le, ?_, ?_⟩
      · rw [eq, index, mint]
      · exact identity.trans (ownRtcIdentity_of_setup inv.setup_eq)

/-- A signal is recorded with the time the handler had taken it. -/
theorem History.record {s : SignalledKey} {n : ℕ} {eagerMints : List ℕ}
    {eager : List OutboundEncryptionKey} {after : Option DistributionRuns.RolloutPhase}
    {handler : Bool} (inv : History setup h (own h.base)) (later : h.base.clock ≤ s.atMs)
    (soon : s.atMs ≤ b.clock) (phase : after = none ∨ after = SignalHistory.rotation h.base)
    (lt : n < h.minted.length) (old : n ≤ h.stored) (index : s.keyIndex = indexOf n)
    (length : eagerMints.length = eager.length)
    (kept : ∀ (i n : ℕ) (key : OutboundEncryptionKey), eagerMints[i]? = some n →
      eager[i]? = some key → ∃ j : ℕ, h.eagerMints[j]? = some n ∧ h.base.eager[j]? = some key)
    (next : own b = { own h.base with
      signalledKey := if handler then some s else h.base.manager.signalledKey
      rotation := after
      eager := eager }) :
    History setup { h with
      base := b, recorded := if handler then some n else h.recorded
      eagerMints := eagerMints } (own b) := by
  rw [next]
  constructor
  · exact inv.setup_eq
  · intro k mint minted
    obtain ⟨index, before⟩ := inv.minted k mint minted
    exact ⟨index, before.trans (later.trans soon)⟩
  · exact inv.counter
  · exact inv.stored
  · intro q sending
    rcases phase with rfl | rfl
    · cases sending
    · exact inv.sending q sending
  · intro q signalling
    rcases phase with rfl | rfl
    · cases signalling
    · exact inv.signalling q signalling
  · exact length
  · intro i n key pending taken
    obtain ⟨j, pending, taken⟩ := kept i n key pending taken
    exact inv.eager j n key pending taken
  · intro s' signalled
    cases handler with
    | false =>
        obtain ⟨n, recorded, minted, old, eq, before, after⟩ := inv.recorded s' signalled
        exact ⟨n, recorded, minted, old, eq, before.trans (later.trans soon), after⟩
    | true =>
        cases signalled
        refine ⟨n, rfl, lt, old, index, soon, ?_⟩
        intro mint minted
        exact (inv.minted n mint minted).2.trans later
  · intro unsignalled
    cases handler with
    | false => exact inv.unrecorded unsignalled
    | true => cases unsignalled
  · exact inv.deliveries

/-- The key in place is signalled outside its rotation, and may wait to be recorded. -/
theorem History.again {key : OutboundEncryptionKey} {signal : KeyMaterialSignal} {at' : ℕ}
    {eagerMints : List ℕ} {eager : List OutboundEncryptionKey} {signals : List KeyMaterialSignal}
    (inv : History setup h (own h.base)) (in_place : h.base.manager.outboundKey = some key)
    (later : h.base.clock = b.clock) (index : signal.keyIndex = key.keyIndex)
    (identity : signal.rtcBackendIdentity = h.base.manager.ownRtcIdentity)
    (length : eagerMints.length = eager.length)
    (kept : ∀ (i n : ℕ) (key' : OutboundEncryptionKey), eagerMints[i]? = some n →
      eager[i]? = some key' → (h.eagerMints[i]? = some n ∧ h.base.eager[i]? = some key') ∨
        n = h.stored ∧ key' = key)
    (next : own b = { own h.base with eager := eager, signals := signals }) :
    History setup { h with
      base := b, eagerMints := eagerMints
      deliveries := h.deliveries ++ [⟨h.stored, signal, at'⟩] } (own b) := by
  obtain ⟨lt, eq⟩ := inv.stored (key.keyIndex, key.key) (by simp [own, ownOf, in_place])
  rw [next]
  constructor
  · exact inv.setup_eq
  · intro k mint minted
    obtain ⟨index, before⟩ := inv.minted k mint minted
    exact ⟨index, before.trans later.le⟩
  · exact inv.counter
  · exact inv.stored
  · exact inv.sending
  · exact inv.signalling
  · exact length
  · intro i n key' pending taken
    rcases kept i n key' pending taken with ⟨pending, taken⟩ | ⟨rfl, rfl⟩
    · exact inv.eager i n key' pending taken
    · exact ⟨lt, Nat.le_refl _, eq⟩
  · intro s signalled
    obtain ⟨n, recorded, minted, old, eq, before, after⟩ := inv.recorded s signalled
    exact ⟨n, recorded, minted, old, eq, before.trans later.le, after⟩
  · exact inv.unrecorded
  · intro d member
    rcases List.mem_append.mp member with earlier | new
    · exact inv.deliveries d earlier
    · cases List.mem_singleton.mp new
      refine ⟨lt, Nat.le_refl _, index.trans eq, ?_⟩
      exact identity.trans (ownRtcIdentity_of_setup inv.setup_eq)

end Moves

theorem getElem?_append_pair {α β : Type*} {xs : List α} {ys : List β}
    (length : xs.length = ys.length) {x a : α} {y c : β} {i : ℕ}
    (hx : (xs ++ [x])[i]? = some a) (hy : (ys ++ [y])[i]? = some c) :
    (xs[i]? = some a ∧ ys[i]? = some c) ∨ a = x ∧ c = y := by
  by_cases lt : i < xs.length
  · rw [List.getElem?_append_left lt] at hx
    rw [List.getElem?_append_left (length ▸ lt)] at hy
    exact Or.inl ⟨hx, hy⟩
  · rw [List.getElem?_append_right (by omega), List.getElem?_singleton] at hx hy
    split_ifs at hx hy
    · cases hx
      cases hy
      exact Or.inr ⟨rfl, rfl⟩

theorem getElem?_eraseIdx_pair {α β : Type*} {xs : List α} {ys : List β} {a : α} {c : β}
    {i j : ℕ} (hx : (xs.eraseIdx i)[j]? = some a) (hy : (ys.eraseIdx i)[j]? = some c) :
    ∃ k : ℕ, xs[k]? = some a ∧ ys[k]? = some c := by
  rw [List.getElem?_eraseIdx] at hx hy
  by_cases lt : j < i
  · rw [if_pos lt] at hx hy
    exact ⟨j, hx, hy⟩
  · rw [if_neg lt] at hx hy
    exact ⟨j + 1, hx, hy⟩

theorem replayOwnKey_eq_some {m : EncryptionManager} {now : ℕ} {signal : KeyMaterialSignal}
    (h : replayOwnKey m now = some signal) :
    ∃ key, m.outboundKey = some key ∧ signal.keyIndex = key.keyIndex ∧
      signal.rtcBackendIdentity = m.ownRtcIdentity := by
  obtain ⟨key, in_place, rfl⟩ := Option.map_eq_some_iff.mp h
  exact ⟨key, in_place, rfl, rfl⟩

theorem history_move {ok : System → Prop} {setup : Setup} {h t : System} (move : Move ok h t)
    (inv : History setup h (own h.base)) : History setup t (own t.base) := by
  cases move with
  | idle same later => exact inv.idle same later
  | mint free later index decided useAfter some_key next =>
      exact inv.mint later index decided some_key next
  | @store b p sending later next =>
      have nothing : ∀ d ∈ ([] : List Delivery), d.mint = h.newest ∧
          d.signal.keyIndex = p.key.keyIndex ∧
            d.signal.rtcBackendIdentity = h.base.manager.ownRtcIdentity := by simp
      have stored := inv.store sending later (by simp) (by simp) nothing next
      rw [List.append_nil] at stored
      exact stored
  | @signal b p signal endsAt sending later soon given next =>
      refine inv.store sending later (by simp) ?_ ?_ next
      · intro q same
        cases same
        rfl
      · intro d new
        cases List.mem_singleton.mp new
        rw [given]
        exact ⟨rfl, rfl, rfl⟩
  | @recordRollout b p atMs signalling later soon next =>
      obtain ⟨lt, index⟩ := inv.signalling p signalling
      refine inv.record later soon (Or.inl rfl) lt (Nat.le_refl _) index inv.eager_length ?_ next
      intro i n key pending taken
      exact ⟨i, pending, taken⟩
  | @eager b key signal endsAt inPlace allowed unsignalled later soon given next =>
      have length : h.eagerMints.length = h.base.eager.length := inv.eager_length
      refine inv.again inPlace later (by rw [given]) (by rw [given]) ?_ ?_ next
      · rw [List.length_append, List.length_append, length]
        rfl
      · intro i n key' pending taken
        exact getElem?_append_pair length pending taken
  | @recordEager b key i atMs pending later soon next =>
      have length : h.eagerMints.length = h.base.eager.length := inv.eager_length
      have bound := (List.getElem?_eq_some_iff.mp pending).1
      have mint : h.eagerMints[i]? = some h.eagerMints[i] := List.getElem?_eq_getElem (by omega)
      obtain ⟨lt, old, index⟩ := inv.eager i _ key mint pending
      rw [mint]
      refine inv.record later soon (Or.inr rfl) lt old index ?_ ?_ next
      · rw [List.length_eraseIdx, List.length_eraseIdx, length]
      · intro j n key' hn hk
        exact getElem?_eraseIdx_pair hn hk
  | @replay b signal now given allowed later soon next =>
      obtain ⟨key, in_place, index, identity⟩ := replayOwnKey_eq_some given
      refine inv.again in_place soon.symm index identity inv.eager_length ?_ next
      intro i n key' pending taken
      exact Or.inl ⟨pending, taken⟩

theorem start_history (setup : Setup) (roster : List MemberEvents.JoinedMembership)
    (key : List UInt8) (now : ℕ) :
    History setup (start setup roster key now) (own (start setup roster key now).base) := by
  unfold start DistributionRuns.start EncryptionManager.join own
  cases managed : setup.config.manageMediaKeys with
  | true =>
      simp only [EncryptionManager.new, managed, if_true]
      constructor
      · rfl
      · intro k mint minted
        rcases k with _ | k
        · cases minted
          exact ⟨rfl, Nat.le_refl _⟩
        · cases minted
      · rfl
      · intro key' in_place
        cases in_place
        exact ⟨Nat.zero_lt_one, rfl⟩
      · simp [ownOf, SignalHistory.rotation]
      · simp [ownOf, SignalHistory.rotation]
      · rfl
      · simp
      · simp [ownOf]
      · simp
      · simp
  | false =>
      simp only [EncryptionManager.new, managed, Bool.false_eq_true, if_false]
      constructor
      · rfl
      · simp
      · rfl
      · simp [ownOf]
      · simp [ownOf, SignalHistory.rotation]
      · simp [ownOf, SignalHistory.rotation]
      · rfl
      · simp
      · simp [ownOf]
      · simp
      · simp

end MatrixRtc.MintedKeys

import MatrixRtc.MintedKeys

/-!
# The media key handler under the manager's signals

`MediaKeyHandler` imports a signalled key into the transport's key ring, moves our
sender onto it if it is ours, and records it. A key with a delay is applied by a
detached timer, which nothing cancels. Here it takes the signals of our own keys as
the manager gives them. Each signal is applied, or its timer set, when it is given; a
timer that is due elapses at any time from then on. What was applied is kept in order.
-/
namespace MatrixRtc.MediaKeyHandlers
open EncryptionManagers StepRuns

/-- A transport's key ring; `setKey` is `false` when the ring refuses the key. -/
structure FrameKeyRing where
  ringSize : ℕ
  setKey : String → UInt8 → List UInt8 → Bool

structure ParticipantKey where
  rtcBackendIdentity : String
  keyIndex : UInt8
  key : List UInt8
deriving DecidableEq, Repr

def ParticipantKey.ofSignal (signal : KeyMaterialSignal) : ParticipantKey :=
  ⟨signal.rtcBackendIdentity, signal.keyIndex, signal.key⟩

/-- The latest key recorded for each identity, the ring, and whose sender the hook of
`set_local_sender` moves. -/
structure MediaKeyHandler where
  ring : Option FrameKeyRing
  keys : String → Option ParticipantKey
  localSender : Option String

/-- An index past the ring never reaches it. -/
def rejects (ring : Option FrameKeyRing) (key : ParticipantKey) : Bool :=
  match ring with
  | none => false
  | some ring =>
      if key.keyIndex.toNat < ring.ringSize then
        !ring.setKey key.rtcBackendIdentity key.keyIndex key.key
      else true

/-- What `apply` came to: whether the ring rejected the key, and the index the local
sender's hook was called with. -/
structure Applied where
  rejected : Bool
  hooked : Option UInt8
deriving DecidableEq, Repr

/-- `MediaKeyHandler::apply`, which records a rejected key too. -/
def MediaKeyHandler.apply (handler : MediaKeyHandler) (key : ParticipantKey) :
    MediaKeyHandler × Applied :=
  let rejected := rejects handler.ring key
  let ours := handler.localSender == some key.rtcBackendIdentity
  ({ handler with keys := Function.update handler.keys key.rtcBackendIdentity (some key) },
    ⟨rejected, if !rejected && ours then some key.keyIndex else none⟩)

/-- What `apply` comes to depends on the ring and the installed hook only. -/
def outcome (ring : Option FrameKeyRing) (localSender : Option String) (key : ParticipantKey) :
    Applied :=
  ⟨rejects ring key,
    if !rejects ring key && localSender == some key.rtcBackendIdentity then some key.keyIndex
    else none⟩

theorem apply_outcome (handler : MediaKeyHandler) (key : ParticipantKey) :
    (handler.apply key).2 = outcome handler.ring handler.localSender key := rfl

/-- A detached timer of `on_new_key_material`. -/
structure Scheduled where
  mint : ℕ
  dueAt : ℕ
  key : ParticipantKey

/-- An own key as it was applied. -/
structure Installation where
  mint : ℕ
  key : ParticipantKey
  applied : Applied

structure System where
  source : OwnKeySignals.System
  handler : MediaKeyHandler
  scheduled : List Scheduled
  installations : List Installation

inductive Action where
  | manager (action : OwnKeySignals.Action)
  | elapse (i : ℕ) (now : ℕ)

namespace System

/-- A key is applied now. -/
def install (s : System) (mint : ℕ) (key : ParticipantKey) : System :=
  { s with
    handler := (s.handler.apply key).1
    installations := s.installations ++ [⟨mint, key, (s.handler.apply key).2⟩] }

/-- `on_new_key_material`: with a delay the application is scheduled. -/
def onNewKeyMaterial (s : System) (d : OwnKeySignals.Delivery) : System :=
  if 0 < d.signal.useAfterMs then
    { s with
      scheduled := s.scheduled ++
        [⟨d.mint, d.deliveredAt + d.signal.useAfterMs, .ofSignal d.signal⟩] }
  else s.install d.mint (.ofSignal d.signal)

/-- The signals a step of the manager gave, in order. -/
def takeSignals (s : System) : List OwnKeySignals.Delivery → System
  | [] => s
  | d :: rest => (s.onNewKeyMaterial d).takeSignals rest

end System

def step (s : System) : Action → Option System
  | .manager action =>
      (OwnKeySignals.step s.source action).map fun source =>
        { s with source := source }.takeSignals
          (source.deliveries.drop s.source.deliveries.length)
  | .elapse i now =>
      match s.scheduled[i]? with
      | none => none
      | some timer =>
          if s.source.base.clock ≤ now ∧ timer.dueAt ≤ now then
            some ({ s with
              source := s.source.tick now
              scheduled := s.scheduled.eraseIdx i }.install timer.mint timer.key)
          else none

/-- A session that has just joined, with a handler that has applied nothing. -/
def start (setup : Setup) (roster : List MemberEvents.JoinedMembership) (key : List UInt8)
    (now : ℕ) (handler : MediaKeyHandler) : System :=
  ⟨OwnKeySignals.start setup roster key now, handler, [], []⟩

theorem move_deliveries {ok : OwnKeySignals.System → Prop} {h t : OwnKeySignals.System}
    (move : SignalHistory.Move ok h t) : ∃ more, t.deliveries = h.deliveries ++ more := by
  cases move with
  | idle | mint | store | recordRollout | recordEager => exact ⟨[], (List.append_nil _).symm⟩
  | signal => exact ⟨_, rfl⟩
  | eager => exact ⟨_, rfl⟩
  | replay => exact ⟨_, rfl⟩

theorem moves_deliveries {ok : OwnKeySignals.System → Prop} {h t : OwnKeySignals.System}
    (moves : SignalHistory.Moves ok h t) : ∃ more, t.deliveries = h.deliveries ++ more := by
  induction moves with
  | refl => exact ⟨[], (List.append_nil _).symm⟩
  | tail _ last ih =>
      obtain ⟨more, eq⟩ := ih
      obtain ⟨more', eq'⟩ := move_deliveries last
      exact ⟨more ++ more', by rw [eq', eq, List.append_assoc]⟩

/-- The timer a delayed signal has set. -/
def timerOf (d : OwnKeySignals.Delivery) : Scheduled :=
  ⟨d.mint, d.deliveredAt + d.signal.useAfterMs, .ofSignal d.signal⟩

/-- Every signal given is waiting for its timer or was applied, and nothing else is. -/
structure Accounted (ring : Option FrameKeyRing) (localSender : Option String) (s : System)
    (given : List OwnKeySignals.Delivery) : Prop where
  ring_eq : s.handler.ring = ring
  localSender_eq : s.handler.localSender = localSender
  scheduled : ∀ timer ∈ s.scheduled, ∃ d ∈ given, timer = timerOf d
  installed : ∀ i ∈ s.installations, ∃ d ∈ given,
    i = ⟨d.mint, .ofSignal d.signal, outcome ring localSender (.ofSignal d.signal)⟩
  complete : ∀ d ∈ given, timerOf d ∈ s.scheduled ∨
    ⟨d.mint, .ofSignal d.signal, outcome ring localSender (.ofSignal d.signal)⟩ ∈ s.installations

section Steps
variable {ring : Option FrameKeyRing} {localSender : Option String} {s : System}
  {given : List OwnKeySignals.Delivery}

theorem Accounted.onNewKeyMaterial (inv : Accounted ring localSender s given)
    (d : OwnKeySignals.Delivery) :
    Accounted ring localSender (s.onNewKeyMaterial d) (given ++ [d]) := by
  have older {q : OwnKeySignals.Delivery → Prop} (h : ∃ d ∈ given, q d) :
      ∃ d' ∈ given ++ [d], q d' := by
    obtain ⟨d', member, holds⟩ := h
    exact ⟨d', List.mem_append_left _ member, holds⟩
  have newest : d ∈ given ++ [d] := List.mem_append_right _ (List.mem_singleton.mpr rfl)
  unfold System.onNewKeyMaterial
  split_ifs with delayed
  · constructor
    · exact inv.ring_eq
    · exact inv.localSender_eq
    · intro timer member
      rcases List.mem_append.mp member with old | new
      · exact older (inv.scheduled timer old)
      · exact ⟨d, newest, List.mem_singleton.mp new⟩
    · intro i member
      exact older (inv.installed i member)
    · intro d' member
      rcases List.mem_append.mp member with old | new
      · rcases inv.complete d' old with waits | applied
        · exact Or.inl (List.mem_append_left _ waits)
        · exact Or.inr applied
      · obtain rfl := List.mem_singleton.mp new
        exact Or.inl (List.mem_append_right _ (List.mem_singleton.mpr rfl))
  · have applied : (s.handler.apply (.ofSignal d.signal)).2 =
        outcome ring localSender (.ofSignal d.signal) := by
      rw [apply_outcome, inv.ring_eq, inv.localSender_eq]
    constructor
    · exact inv.ring_eq
    · exact inv.localSender_eq
    · intro timer member
      exact older (inv.scheduled timer member)
    · intro i member
      rcases List.mem_append.mp member with old | new
      · exact older (inv.installed i old)
      · rw [List.mem_singleton.mp new, applied]
        exact ⟨d, newest, rfl⟩
    · intro d' member
      rcases List.mem_append.mp member with old | new
      · rcases inv.complete d' old with waits | done
        · exact Or.inl waits
        · exact Or.inr (List.mem_append_left _ done)
      · obtain rfl := List.mem_singleton.mp new
        refine Or.inr (List.mem_append_right _ (List.mem_singleton.mpr ?_))
        rw [applied]

theorem Accounted.takeSignals (inv : Accounted ring localSender s given)
    (more : List OwnKeySignals.Delivery) :
    Accounted ring localSender (s.takeSignals more) (given ++ more) := by
  induction more generalizing s given with
  | nil =>
      rw [List.append_nil]
      exact inv
  | cons d more ih =>
      have next := ih (inv.onNewKeyMaterial d)
      rw [List.append_assoc] at next
      exact next

theorem onNewKeyMaterial_source (s : System) (d : OwnKeySignals.Delivery) :
    (s.onNewKeyMaterial d).source = s.source := by
  unfold System.onNewKeyMaterial
  split_ifs <;> rfl

theorem takeSignals_source (s : System) (more : List OwnKeySignals.Delivery) :
    (s.takeSignals more).source = s.source := by
  induction more generalizing s with
  | nil => rfl
  | cons d more ih => rw [System.takeSignals, ih, onNewKeyMaterial_source]

theorem Accounted.elapse {i now : ℕ} {timer : Scheduled}
    (inv : Accounted ring localSender s given) (pending : s.scheduled[i]? = some timer) :
    Accounted ring localSender
      ({ s with
        source := s.source.tick now
        scheduled := s.scheduled.eraseIdx i }.install timer.mint timer.key) given := by
  obtain ⟨d, member, eq⟩ := inv.scheduled timer (List.mem_of_getElem? pending)
  have applied : (s.handler.apply timer.key).2 = outcome ring localSender timer.key := by
    rw [apply_outcome, inv.ring_eq, inv.localSender_eq]
  constructor
  · exact inv.ring_eq
  · exact inv.localSender_eq
  · intro other waits
    exact inv.scheduled other (List.mem_of_mem_eraseIdx waits)
  · intro j member'
    rcases List.mem_append.mp member' with old | new
    · exact inv.installed j old
    · rw [List.mem_singleton.mp new, applied, eq]
      exact ⟨d, member, rfl⟩
  · intro d' member'
    rcases inv.complete d' member' with waits | done
    · by_cases same : timerOf d' = timer
      · refine Or.inr (List.mem_append_right _ (List.mem_singleton.mpr ?_))
        rw [applied, ← same]
        rfl
      · refine Or.inl (List.mem_eraseIdx_iff_getElem?.mpr ?_)
        obtain ⟨j, at_⟩ := List.mem_iff_getElem?.mp waits
        refine ⟨j, ?_, at_⟩
        rintro rfl
        exact same (Option.some.inj (at_.symm.trans pending))
    · exact Or.inr (List.mem_append_left _ done)

/-- A step is a chain of moves of the manager's history. -/
theorem step_source {t : System} {a : Action} (progress : SignalHistory.Progress s.source.base)
    (h : step s a = some t) :
    SignalHistory.Moves (fun _ => True) s.source t.source ∧
      SignalHistory.Progress t.source.base := by
  cases a with
  | manager action =>
      obtain ⟨source, taken, rfl⟩ := Option.map_eq_some_iff.mp h
      rw [takeSignals_source]
      exact ⟨SignalHistory.step_moves progress (SignalHistory.allows_all _ _) taken,
        SignalHistory.keep_progress progress taken⟩
  | elapse i now =>
      simp only [step] at h
      split at h
      · cases h
      · simp only [Option.ite_none_right_eq_some, Option.some.injEq] at h
        obtain ⟨⟨later, -⟩, rfl⟩ := h
        exact ⟨SignalHistory.tick_moves later, progress⟩

theorem Accounted.step {t : System} {a : Action}
    (inv : Accounted ring localSender s s.source.deliveries)
    (progress : SignalHistory.Progress s.source.base) (h : step s a = some t) :
    Accounted ring localSender t t.source.deliveries := by
  cases a with
  | manager action =>
      obtain ⟨source, taken, rfl⟩ := Option.map_eq_some_iff.mp h
      obtain ⟨more, eq⟩ := moves_deliveries
        (SignalHistory.step_moves progress (SignalHistory.allows_all _ _) taken)
      have before : Accounted ring localSender { s with source := source } s.source.deliveries :=
        ⟨inv.ring_eq, inv.localSender_eq, inv.scheduled, inv.installed, inv.complete⟩
      have taken_all := before.takeSignals more
      rw [takeSignals_source, eq, List.drop_left]
      exact taken_all
  | elapse i now =>
      simp only [MediaKeyHandlers.step] at h
      split at h
      · cases h
      · rename_i timer pending
        simp only [Option.ite_none_right_eq_some, Option.some.injEq] at h
        rw [← h.2]
        exact inv.elapse pending

end Steps

theorem start_accounted (setup : Setup) (roster : List MemberEvents.JoinedMembership)
    (key : List UInt8) (now : ℕ) (handler : MediaKeyHandler) :
    Accounted handler.ring handler.localSender (start setup roster key now handler) [] := by
  constructor
  · rfl
  · rfl
  · intro timer waits
    cases waits
  · intro i member
    cases member
  · intro d given
    cases given

/-- In every state of a run the signals are accounted for and the history fits. -/
theorem run_accounted {setup : Setup} {roster : List MemberEvents.JoinedMembership}
    {key : List UInt8} {now : ℕ} {handler : MediaKeyHandler} {as : List Action} {t : System}
    (h : run step (start setup roster key now handler) as = some t) :
    Accounted handler.ring handler.localSender t t.source.deliveries ∧
      MintedKeys.History setup t.source (SignalHistory.own t.source.base) := by
  have inv : SignalHistory.Progress t.source.base ∧
      Accounted handler.ring handler.localSender t t.source.deliveries ∧
        MintedKeys.History setup t.source (SignalHistory.own t.source.base) := by
    apply run_invariant_of_step (I := fun s => SignalHistory.Progress s.source.base ∧
      Accounted handler.ring handler.localSender s s.source.deliveries ∧
        MintedKeys.History setup s.source (SignalHistory.own s.source.base)) _ _ h
    · intro s a u inv taken
      obtain ⟨progress, accounted, fits⟩ := inv
      obtain ⟨moves, progress'⟩ := step_source progress taken
      refine ⟨progress', accounted.step progress taken, ?_⟩
      exact SignalHistory.moves_keep
        (I := fun h => MintedKeys.History setup h (SignalHistory.own h.base))
        (fun _ _ => MintedKeys.history_move) moves fits
    · exact ⟨SignalHistory.start_progress setup roster key now,
        start_accounted setup roster key now handler,
        MintedKeys.start_history setup roster key now⟩
  exact inv.2

end MatrixRtc.MediaKeyHandlers

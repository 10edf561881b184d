import MatrixRtc.MediaKeyHandlers
import MatrixRtc.SwitchDelays

/-!
# The order in which our own keys are installed

The manager gives its keys to the handler in the order it minted them. The handler
installs them in that order as long as none is given to be used before an older one
that is still waiting for its timer, and as long as the timers elapse in the order they
are due.
-/
namespace MatrixRtc.SenderOrder
open EncryptionManagers KeyRollout StepRuns MediaKeyHandlers
open OwnKeySignals (Delivery)

/-- Nothing older was installed after a newer key. -/
def InMintOrder (s : System) : Prop :=
  s.installations.Pairwise fun i j => i.mint ≤ j.mint

instance : DecidablePred InMintOrder := fun s =>
  inferInstanceAs (Decidable (s.installations.Pairwise _))

/-- Every older key still waiting is due before this one is to be used. -/
def Follows (scheduled : List Scheduled) (d : Delivery) : Prop :=
  ∀ timer ∈ scheduled, timer.mint < d.mint →
    0 < d.signal.useAfterMs ∧ timer.dueAt < d.deliveredAt + d.signal.useAfterMs

def AllFollow (s : System) : List Delivery → Prop
  | [] => True
  | d :: rest => Follows s.scheduled d ∧ AllFollow (s.onNewKeyMaterial d) rest

/-- What the manager gives follows the keys still waiting; of the timers that one
elapses which is due first. -/
def InTurn (s : System) : Action → Prop
  | .manager a => ∀ source ∈ OwnKeySignals.step s.source a,
      AllFollow { s with source := source }
        (source.deliveries.drop s.source.deliveries.length)
  | .elapse i _ => ∀ timer ∈ s.scheduled[i]?, ∀ other ∈ s.scheduled, timer.dueAt ≤ other.dueAt

instance (scheduled : List Scheduled) : DecidablePred (Follows scheduled) := fun _ =>
  inferInstanceAs (Decidable (∀ timer ∈ scheduled, timer.mint < _ → _))

instance AllFollow.decidable (s : System) : DecidablePred (AllFollow s)
  | [] => isTrue trivial
  | d :: rest =>
      have : Decidable (AllFollow (s.onNewKeyMaterial d) rest) := AllFollow.decidable _ rest
      inferInstanceAs (Decidable (_ ∧ _))

instance (s : System) : DecidablePred (InTurn s)
  | .manager a => inferInstanceAs (Decidable (∀ source ∈ OwnKeySignals.step s.source a, _))
  | .elapse i _ => inferInstanceAs (Decidable (∀ timer ∈ s.scheduled[i]?, _))

/-- The keys were given in the order they were minted. -/
def GivenInOrder (given : List Delivery) : Prop :=
  given.Pairwise fun d e => d.mint ≤ e.mint

theorem GivenInOrder.append {given : List Delivery} {d : Delivery} (order : GivenInOrder given)
    (newest : ∀ e ∈ given, e.mint ≤ d.mint) : GivenInOrder (given ++ [d]) := by
  apply List.pairwise_append.mpr
  refine ⟨order, List.pairwise_singleton _ _, ?_⟩
  intro e member last new
  rw [List.mem_singleton.mp new]
  exact newest e member

theorem givenInOrder_move {ok : OwnKeySignals.System → Prop} {setup : Setup}
    {h t : OwnKeySignals.System} (move : SignalHistory.Move ok h t)
    (fits : MintedKeys.History setup h (SignalHistory.own h.base))
    (order : GivenInOrder h.deliveries) : GivenInOrder t.deliveries := by
  have stored : ∀ e ∈ h.deliveries, e.mint ≤ h.stored := by
    intro e given
    exact (fits.deliveries e given).2.1
  cases move with
  | idle | mint | store | recordRollout | recordEager => exact order
  | signal sending =>
      obtain ⟨newer, -, -⟩ := fits.sending _ sending
      exact order.append fun e given => (stored e given).trans newer.le
  | eager => exact order.append stored
  | replay => exact order.append stored

/-- What is installed is in order, and no newer than what waits; what waits is due in
order. -/
structure Ordered (s : System) : Prop where
  installed : InMintOrder s
  waiting : ∀ i ∈ s.installations, ∀ timer ∈ s.scheduled, i.mint ≤ timer.mint
  due : ∀ a ∈ s.scheduled, ∀ b ∈ s.scheduled, a.mint < b.mint → a.dueAt < b.dueAt

theorem Ordered.install {s : System} {mint : ℕ} {key : ParticipantKey} (inv : Ordered s)
    (newest : ∀ i ∈ s.installations, i.mint ≤ mint)
    (oldest : ∀ timer ∈ s.scheduled, mint ≤ timer.mint) : Ordered (s.install mint key) := by
  constructor
  · apply List.pairwise_append.mpr
    refine ⟨inv.installed, List.pairwise_singleton _ _, ?_⟩
    intro i member last new
    rw [List.mem_singleton.mp new]
    exact newest i member
  · intro i member timer waits
    rcases List.mem_append.mp member with old | new
    · exact inv.waiting i old timer waits
    · rw [List.mem_singleton.mp new]
      exact oldest timer waits
  · exact inv.due

theorem Ordered.onNewKeyMaterial {s : System} {d : Delivery} (inv : Ordered s)
    (installed : ∀ i ∈ s.installations, i.mint ≤ d.mint)
    (scheduled : ∀ timer ∈ s.scheduled, timer.mint ≤ d.mint) (follows : Follows s.scheduled d) :
    Ordered (s.onNewKeyMaterial d) := by
  unfold System.onNewKeyMaterial
  split_ifs with delayed
  · constructor
    · exact inv.installed
    · intro i member timer waits
      rcases List.mem_append.mp waits with old | new
      · exact inv.waiting i member timer old
      · rw [List.mem_singleton.mp new]
        exact installed i member
    · intro a ha b hb older
      rcases List.mem_append.mp ha with olda | newa
      · rcases List.mem_append.mp hb with oldb | newb
        · exact inv.due a olda b oldb older
        · obtain rfl := List.mem_singleton.mp newb
          exact (follows a olda older).2
      · obtain rfl := List.mem_singleton.mp newa
        rcases List.mem_append.mp hb with oldb | newb
        · exact absurd older (Nat.not_lt_of_le (scheduled b oldb))
        · obtain rfl := List.mem_singleton.mp newb
          exact absurd older (Nat.lt_irrefl _)
  · apply inv.install installed
    intro timer waits
    by_contra older
    exact delayed (follows timer waits (Nat.lt_of_not_le older)).1

section Signals
variable {ring : Option FrameKeyRing} {localSender : Option String}

theorem Ordered.takeSignals {s : System} {given more : List Delivery}
    (accounted : Accounted ring localSender s given) (order : GivenInOrder (given ++ more))
    (inv : Ordered s) (follow : AllFollow s more) : Ordered (s.takeSignals more) := by
  induction more generalizing s given with
  | nil => exact inv
  | cons d more ih =>
      have older : ∀ e ∈ given, e.mint ≤ d.mint := by
        intro e member
        exact (List.pairwise_append.mp order).2.2 e member d List.mem_cons_self
      apply ih (accounted.onNewKeyMaterial d)
      · rw [List.append_assoc]
        exact order
      · apply inv.onNewKeyMaterial
        · intro i member
          obtain ⟨e, earlier, rfl⟩ := accounted.installed i member
          exact older e earlier
        · intro timer waits
          obtain ⟨e, earlier, rfl⟩ := accounted.scheduled timer waits
          exact older e earlier
        · exact follow.1
      · exact follow.2

end Signals

theorem Ordered.elapse {s : System} {i now : ℕ} {timer : Scheduled} (inv : Ordered s)
    (pending : s.scheduled[i]? = some timer)
    (first : ∀ other ∈ s.scheduled, timer.dueAt ≤ other.dueAt) :
    Ordered ({ s with
      source := s.source.tick now
      scheduled := s.scheduled.eraseIdx i }.install timer.mint timer.key) := by
  have member : timer ∈ s.scheduled := List.mem_of_getElem? pending
  apply Ordered.install
  · constructor
    · exact inv.installed
    · intro j installed other waits
      exact inv.waiting j installed other (List.mem_of_mem_eraseIdx waits)
    · intro a ha b hb
      exact inv.due a (List.mem_of_mem_eraseIdx ha) b (List.mem_of_mem_eraseIdx hb)
  · intro j installed
    exact inv.waiting j installed timer member
  · intro other waits
    have waits := List.mem_of_mem_eraseIdx waits
    by_contra older
    have earlier := inv.due other waits timer member (Nat.lt_of_not_le older)
    exact absurd (first other waits) (Nat.not_le_of_lt earlier)

/-- What a run keeps: the history fits, and keys are given and installed in order. -/
structure Inv (setup : Setup) (handler : MediaKeyHandler) (s : System) : Prop where
  progress : SignalHistory.Progress s.source.base
  accounted : Accounted handler.ring handler.localSender s s.source.deliveries
  fits : MintedKeys.History setup s.source (SignalHistory.own s.source.base)
  given : GivenInOrder s.source.deliveries
  ordered : Ordered s

theorem Inv.step {setup : Setup} {handler : MediaKeyHandler} {s t : System} {a : Action}
    (inv : Inv setup handler s) (turn : InTurn s a) (h : MediaKeyHandlers.step s a = some t) :
    Inv setup handler t := by
  obtain ⟨moves, progress⟩ := step_source inv.progress h
  have source : MintedKeys.History setup t.source (SignalHistory.own t.source.base) ∧
      GivenInOrder t.source.deliveries := by
    apply SignalHistory.moves_keep
      (I := fun h => MintedKeys.History setup h (SignalHistory.own h.base) ∧
        GivenInOrder h.deliveries) _ moves ⟨inv.fits, inv.given⟩
    intro h u move both
    exact ⟨MintedKeys.history_move move both.1, givenInOrder_move move both.1 both.2⟩
  refine ⟨progress, inv.accounted.step inv.progress h, source.1, source.2, ?_⟩
  cases a with
  | manager action =>
      obtain ⟨more, eq⟩ := moves_deliveries moves
      obtain ⟨u, taken, rfl⟩ := Option.map_eq_some_iff.mp h
      rw [takeSignals_source] at eq source
      have follow := turn u taken
      rw [eq, List.drop_left] at follow ⊢
      have before : Accounted handler.ring handler.localSender { s with source := u }
          s.source.deliveries := by
        obtain ⟨ring, localSender, scheduled, installed, complete⟩ := inv.accounted
        exact ⟨ring, localSender, scheduled, installed, complete⟩
      apply Ordered.takeSignals before
      · exact eq ▸ source.2
      · exact ⟨inv.ordered.installed, inv.ordered.waiting, inv.ordered.due⟩
      · exact follow
  | elapse i now =>
      simp only [MediaKeyHandlers.step] at h
      split at h
      · cases h
      · rename_i timer pending
        simp only [Option.ite_none_right_eq_some, Option.some.injEq] at h
        rw [← h.2]
        exact inv.ordered.elapse pending (turn timer pending)

section Runs
open DistributionRuns (inputAt)
open SwitchDelays (listening carol)

/-- A handler over a ring that accepts every index, whose hook is installed for Alice. -/
def accepting : MediaKeyHandler :=
  ⟨some ⟨256, fun _ _ _ => true⟩, fun _ => none, some (MintedKeys.ownIdentity listening)⟩

/-- The rotation after Carol's arrival takes eight seconds to send its key, which is
signalled with the delay. -/
def rotatedSlowly : List Action :=
  [.manager (.act (.onMembershipsUpdate (inputAt 0)) 0),
    .manager (.act (.eagerSignalled 0 0 (inputAt 0)) 0),
    .manager (.act (.rolloutAnswered (.ok [.sent ⟨"@bob:x", "B"⟩]) (inputAt 0).next) 0),
    .manager (.act (.setRoster [bob, carol]) 20000),
    .manager (.act (.onMembershipsUpdate (inputAt 20000)) 20000),
    .manager (.act (.rolloutAnswered
      (.ok [.sent ⟨"@bob:x", "B"⟩, .sent ⟨"@carol:x", "C"⟩]) (inputAt 20000).next) 28000),
    .manager (.act (.rolloutSignalled 28000 (inputAt 28000).next) 28000)]

end Runs

end MatrixRtc.SenderOrder

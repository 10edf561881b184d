import MatrixRtc.CarriedCalls
import MatrixRtc.StepRuns

/-!
# The streams of a media pool and the connections under them

A host keeps the streams it is told of, and forgets those of the members that leave a
snapshot: these are the tracks of the pool in every run. Each came over a connection that
is up in the runs where no connection goes that a track still names.
-/
namespace MatrixRtc.PoolStreams
open MemberEvents MediaTransports Tables MediaPools PoolMoves PoolMembers PoolCarriage StepRuns

/-- A pool, and the streams of the host that is told of its events. -/
structure Watched where
  pool : MediaPool
  streams : List Stream

def start (config : PoolConfig) : Watched := ⟨.new config, []⟩

/-- The streams of the members that leave are forgotten. -/
def remembered (streams : List Stream) (call : Call) : List Stream :=
  match call with
  | .applySnapshot snapshot => streams.filter fun s => Named snapshot s.1
  | _ => streams

/-- A call, whose events the host takes. -/
def step (w : Watched) (input : Input) : Option Watched :=
  let (pool, events, _) := (w.pool.perform input).take
  some ⟨pool, heard (remembered w.streams input.call) events⟩

/-- Every track names a connection that is up, and the host has the streams of the tracks. -/
structure Right (w : Watched) : Prop where
  carried : ∀ key, names (mediaOf w.pool) key → isUp (mediaOf w.pool) key
  streams : ∀ s, s ∈ w.streams ↔ s ∈ w.pool.tracks

/-- The connection that a call takes down whose tracks it does not retire: an idle one, our
own focus given up at the end of its budget, or our own focus that our media leaves. -/
def takesDown (p : MediaPool) (input : Input) : Option String :=
  match input.call with
  | .handle (.closeIfIdle key idleGeneration) =>
      if p.idleCloses key idleGeneration then some key else none
  | .handle (.ownFinalAttemptExpired epoch) =>
      if p.finalAttemptOver epoch then p.ownConnectionKey else none
  | .handle (.ownRetry _) => leavesOwn p input.now input.takeOver
  | .handle (.ownFallback epoch) =>
      if p.own.any (·.epoch == epoch) then leavesOwn p input.now input.takeOver else none
  | .handle (.connection key generation .reconnected) =>
      if p.isCurrent key generation && p.ownConnectionKey != some key then
        leavesOwn (p.clearDegraded key) input.now input.takeOver
      else none
  | .handle (.connectFinished key attempt (.ok connection)) =>
      match p.pool.lookup key with
      | some entry =>
          if entry.state = .connecting attempt ∧ p.ownConnectionKey ≠ some key ∧
              (entry.members.isEmpty && !entry.isOwn) = false then
            leavesOwn ((p.installed key entry connection).clearDegraded key) input.now
              input.takeOver
          else none
      | none => none
  | .setSignallingReachable true =>
      leavesOwn { p with signallingReachable := true } input.now input.takeOver
  | _ => none

/-- Tracks come over connections that are up, a connection of our own focus that is still to
connect has none, a pool is closed when it has none, and our own focus has none left where it
is not the connection that was lost. -/
def admits (p : MediaPool) (call : Call) : Bool :=
  match call with
  | .handle (.connection key generation (.trackAdded _ _ _)) =>
      !p.isCurrent key generation || isUp (mediaOf p) key
  | .handle (.connection key generation (.closed _)) =>
      !p.isCurrent key generation || ownSpared p key generation
  | .handle (.connectionEnded key generation) => ownSpared p key generation
  | .connectOwn key _ =>
      !names (mediaOf p) key && p.ownConnectionKey.all fun ownKey => !names (mediaOf p) ownKey
  | .close => p.tracks.entries.isEmpty && p.pendingTracks.entries.all (·.2.isEmpty)
  | _ => true

/-- No connection that a track names goes without its tracks. -/
def Kept (w : Watched) (input : Input) : Prop :=
  ((takesDown w.pool input).all fun key => !hasTrack (mediaOf w.pool) key) ∧
    admits w.pool input.call

instance (w : Watched) (input : Input) : Decidable (Kept w input) :=
  inferInstanceAs (Decidable (_ ∧ _))

section
variable {p q : MediaPool} {w v : Watched}

theorem carried_handleConnectionEvent (h : Carried p) (key : String) (event : ConnectionEvent)
    (now : ℕ) (takeOver : Except TransportError Unit)
    (added : ∀ identity kind track, event = .trackAdded identity kind track →
      isUp (mediaOf p) key)
    (spared : ∀ message, event = .closed message →
      ownSpared p key (((p.pool.lookup key).map (·.generation)).getD 0))
    (untracked : event = .reconnected → p.ownConnectionKey ≠ some key → ∀ ownKey,
      leavesOwn (p.clearDegraded key) now takeOver = some ownKey →
        ¬ hasTrack (mediaOf p) ownKey) :
    Carried (p.handleConnectionEvent key event now takeOver) := by
  cases event with
  | remoteJoined identity => exact h.quiet (quiet_remoteJoined key identity)
  | remoteLeft identity => exact h.quiet (quiet_remoteLeft identity)
  | trackAdded identity kind track =>
      exact h.trackAdded identity kind track (added identity kind track rfl)
  | trackRemoved identity kind => exact h.trackRemoved key identity kind
  | trackMuted identity kind => exact h.quiet (quiet_muted identity kind true)
  | trackUnmuted identity kind => exact h.quiet (quiet_muted identity kind false)
  | activeSpeakers speakers => exact h.quiet (quiet_emit fun _ => rfl)
  | encryptionStateChanged identity state =>
      exact h.quiet (quiet_encryptionStateChanged identity state)
  | trackNotEncrypted identity kind => exact h.quiet (quiet_trackNotEncrypted identity)
  | reconnecting => exact h.quiet (quiet_reconnecting key now)
  | reconnected => exact h.reconnected key now takeOver (untracked rfl)
  | closed message => exact h.connectionDown key _ message now (spared message rfl)

theorem generation_of_isCurrent {key : String} {generation : ℕ}
    (h : p.isCurrent key generation = true) :
    ((p.pool.lookup key).map (·.generation)).getD 0 = generation := by
  obtain ⟨entry, found, same⟩ := (Option.any_eq_true _ _).mp h
  rw [found]
  exact beq_iff_eq.mp same

theorem untracked_of_all {m : Media} {down : Option String}
    (h : down.all fun key => !hasTrack m key) : ∀ key ∈ down, ¬ hasTrack m key := by
  intro key is_key tracked
  rw [Option.mem_def.mp is_key, Option.all_some, tracked] at h
  cases h

theorem carried_handle (h : Carried w.pool) (message : Message) (now : ℕ)
    (takeOver : Except TransportError Unit) (kept : Kept w ⟨.handle message, now, takeOver⟩) :
    Carried (w.pool.handle message now takeOver) := by
  obtain ⟨untracked, rest⟩ := kept
  have untracked := untracked_of_all untracked
  unfold MediaPool.handle
  cases message with
  | connection key generation event =>
      dsimp only
      split_ifs with current
      · refine carried_handleConnectionEvent h key event now takeOver ?_ ?_ ?_
        · rintro identity kind track rfl
          rw [admits, current, Bool.not_true, Bool.false_or] at rest
          exact rest
        · rintro message rfl
          rw [admits, current, Bool.not_true, Bool.false_or] at rest
          rw [generation_of_isCurrent current]
          exact rest
        · rintro rfl peer ownKey leaves
          refine untracked ownKey ?_
          rw [takesDown]
          simpa [current, peer] using leaves
      · exact h
  | connectionEnded key generation => exact h.connectionDown key generation _ now rest
  | connectFinished key attempt result =>
      refine h.connectFinished key attempt result now takeOver ?_
      rintro entry connection found connecting needed rfl peer ownKey leaves
      refine untracked ownKey ?_
      rw [takesDown]
      simp only [found]
      rw [if_pos ⟨connecting, peer, needed⟩]
      exact leaves
  | retryConnect key attempt => exact h.retryConnect key attempt
  | closeIfIdle key idleGeneration =>
      refine h.closeIfIdle fun closes => untracked key ?_
      rw [takesDown]
      dsimp only
      rw [if_pos closes]
      rfl
  | applyConstraints memberId kind generation =>
      dsimp only
      split_ifs
      · exact h.quiet (quiet_applyConstraintsNow memberId kind)
      · exact h
  | ownConnectFinished attempt result => exact h.ownConnectFinished attempt result now
  | ownRetry attempt => exact h.ownRetry attempt now takeOver fun key leaves => untracked key leaves
  | ownBudget epoch => exact h.ownBudget epoch
  | ownFinalAttemptExpired epoch =>
      dsimp only
      split_ifs with expired
      · refine h.giveUpOwnBudget fun key is_key => untracked key ?_
        rw [takesDown]
        dsimp only
        rw [if_pos expired]
        exact is_key
      · exact h
  | ownFallback epoch =>
      dsimp only
      split_ifs with lasts
      · refine h.tryFallback now takeOver fun key leaves => untracked key ?_
        rw [takesDown]
        dsimp only
        rw [if_pos lasts]
        exact leaves
      · exact h

/-- A call that meets its condition leaves every track on a connection that is up. -/
theorem carried_perform (h : Carried w.pool) {input : Input} (kept : Kept w input) :
    Carried (w.pool.perform input) := by
  obtain ⟨call, now, takeOver⟩ := input
  unfold MediaPool.perform
  cases call with
  | applySnapshot snapshot => exact h.applySnapshot snapshot
  | adoptOwnConnection key connection => exact h.adoptOwnConnection key connection
  | connectOwn key connection =>
      obtain ⟨unnamed, ownUnnamed⟩ := Bool.and_eq_true_iff.mp kept.2
      refine h.connectOwn connection now (by simpa using unnamed) fun ownKey is_key named => ?_
      rw [is_key, Option.all_some, named] at ownUnnamed
      cases ownUnnamed
  | keyImported identity keyIndex => exact h.quiet (quiet_keyImported identity keyIndex)
  | setConstraints memberId kind constraints => exact h.of_media rfl
  | setSignallingReachable reachable =>
      refine h.setSignallingReachable reachable now takeOver fun on key leaves => ?_
      subst on
      exact untracked_of_all kept.1 key leaves
  | handle message => exact carried_handle h message now takeOver kept
  | close =>
      obtain ⟨tracks, pending⟩ := Bool.and_eq_true_iff.mp kept.2
      refine Carried.close fun key named => ?_
      obtain tracked | buffered := names_iff.mp named
      · obtain ⟨e, there, -⟩ := List.any_eq_true.mp tracked
        rw [show (mediaOf w.pool).tracks.entries = [] from List.isEmpty_iff.mp tracks] at there
        cases there
      · obtain ⟨e, there, from_⟩ := List.any_eq_true.mp buffered
        rw [List.isEmpty_iff.mp (List.all_eq_true.mp pending e there)] at from_
        cases from_

/-- The host's streams are those of the tracks after a call, where they were before. -/
theorem heard_perform (inv : Attributed p) (taken : p.out = []) {streams : List Stream}
    (same : ∀ s, s ∈ streams ↔ s ∈ p.tracks) (input : Input) (s : Stream) :
    s ∈ heard (remembered streams input.call) (p.perform input).out ↔
      s ∈ (p.perform input).tracks := by
  by_cases applies : ∃ snapshot, input.call = .applySnapshot snapshot
  · obtain ⟨snapshot, call⟩ := applies
    have ⟨_, _, _, _, left, out⟩ := remains_forgetDeparted inv snapshot
    obtain ⟨events, reported, tracks⟩ := told_applySnapshot p snapshot
    rw [MediaPool.perform, call, reported, out, taken, List.nil_append, tracks s]
    refine heard_congr (fun t => ?_) events s
    rw [AList.mem_keys.symm.trans (left t), remembered, List.mem_filter, decide_eq_true_eq]
    exact and_congr_left fun _ => same t
  · have other : ∀ snapshot, input.call ≠ .applySnapshot snapshot :=
      fun snapshot call => applies ⟨snapshot, call⟩
    obtain ⟨events, reported, tracks⟩ := (moves_perform (p := p) other).told
    rw [reported, taken, List.nil_append, tracks s]
    refine heard_congr (fun t => ?_) events s
    rw [show remembered streams input.call = streams from ?_]
    · exact (same t).trans AList.mem_keys
    · unfold remembered
      split
      · next snapshot call => exact absurd call (other snapshot)
      · rfl

/-- What holds of a pool between calls, and of the host that is told of its events. -/
structure Between (w : Watched) : Prop where
  attributed : Attributed w.pool
  taken : w.pool.out = []
  streams : ∀ s, s ∈ w.streams ↔ s ∈ w.pool.tracks

theorem between_start (config : PoolConfig) : Between (start config) where
  attributed := attributed_new config
  taken := rfl
  streams s := by
    constructor
    · intro there
      cases there
    · intro there
      cases there

theorem between_step (input : Input) (inv : Between w) (h : step w input = some v) :
    Between v := by
  cases h
  exact
    { attributed := (inv.attributed.perform input).take
      taken := rfl
      streams := heard_perform inv.attributed inv.taken inv.streams input }

theorem carried_step {input : Input} (h : Carried w.pool) (kept : Kept w input)
    (next : step w input = some v) : Carried v.pool := by
  cases next
  exact (carried_perform h kept).of_media rfl

end

/-- In every run in which no connection goes that a track names, each track names a
connection that is up and the host has the streams of the tracks, after every call. -/
theorem streams_carried (config : PoolConfig) (inputs : List Input)
    (kept : Admissible step Kept (start config) inputs) :
    Always step Right (start config) inputs := by
  refine always_of_admissible (I := fun w => Between w ∧ Carried w.pool)
    (fun w input v inv kept next => ?_) (fun w inv => ⟨inv.2.up, inv.1.streams⟩)
    ⟨between_start config, Carried.start config⟩ kept
  exact ⟨between_step input inv.1 next, carried_step inv.2 kept next⟩

/-- Bob's camera comes over the focus he names, and he moves to another one. -/
def bobMoves : List Input :=
  [⟨.applySnapshot [bobNaming [jwtTransport "https://a.x"]], 0, .ok ()⟩,
    ⟨.handle (.connectFinished "https://a.x" 0 (.ok 1)), 1, .ok ()⟩,
    ⟨.handle (.connection "https://a.x" 1 (.trackAdded "@bob:x:DEVICE" .camera 7)), 2, .ok ()⟩,
    ⟨.applySnapshot [bobNaming [jwtTransport "https://b.x"]], 3, .ok ()⟩]

/-- The connection that Bob left is lost before its idle timer fires: his camera is gone. -/
theorem streams_carried_lost :
    Always step Right (start aliceConfig)
      (bobMoves ++ [⟨.handle (.connectionEnded "https://a.x" 1), 4, .ok ()⟩,
        ⟨.handle (.closeIfIdle "https://a.x" 1), idleGrace + 3, .ok ()⟩]) :=
  streams_carried aliceConfig _ (by decide +kernel)

/-- The idle connection that Bob left is closed, and his camera still names it. -/
theorem idle_close_leaves_track :
    ¬ ∀ (config : PoolConfig) (inputs : List Input),
      Always step Right (start config) inputs := by
  intro h
  have right := h aliceConfig
    (bobMoves ++ [⟨.handle (.closeIfIdle "https://a.x" 1), idleGrace + 3, .ok ()⟩])
  have carried := right.mono fun w right => right.carried "https://a.x"
  revert carried
  decide +kernel

end MatrixRtc.PoolStreams

import MatrixRtc.PoolConnects
import MatrixRtc.TaskSteps

/-!
# What keeps a media pool going

A focus that has no connection waits for a task: a connect or an attempt that is to answer,
or the backoff before the next. One that has a connection waits for its end, and one that
nobody is on any more for its timer. Each operation of a pool leaves every entry with the
task that it waits for.
-/
namespace MatrixRtc.PoolUpkeep
open MemberEvents MediaTransports Tables MediaPools PoolFrames OwnFocus PoolConnects PoolTasks

/-- A task about a connection, and not about what is asked of a stream. -/
def isUpkeep : Spawned → Bool
  | .constrain _ _ _ _ | .applyConstraints _ _ _ _ => false
  | _ => true

/-- The tasks that were started about connections. -/
def upkeep (p : MediaPool) : List Spawned := p.spawned.filter isUpkeep

/-- The task is the one that the entry under the key waits for. -/
def drives (key : String) (entry : ManagedConnection) (task : Spawned) : Prop :=
  match entry.state, entry.isOwn with
  | .connecting attempt, false => task = .connect key attempt
  | .backoff attempt, false => task = .retryConnect key attempt (backoffDelay attempt)
  | .connecting attempt, true =>
      ∃ connection freshToken, task = .ownAttempt connection attempt freshToken
  | .backoff attempt, true => ∃ delay ≤ ownBackoffMax, task = .ownRetry attempt delay
  | .up _, _ => task = .forward key entry.generation

/-- The timer that ends a loss of our own focus. -/
def expiry (own : OwnRecovery) (budget : ℕ) : Spawned :=
  if own.budgetSpent then .ownFinalAttempt own.epoch ownFinalAttemptGrace
  else .ownBudget own.epoch budget

/-- The failure of a connect to a peer's focus counts for our own focus, which waits for an
attempt of that number. -/
def spoils (p : MediaPool) : Call → Bool
  | .handle (.connectFinished key attempt (.error _)) =>
      p.ownConnectionKey == some key && p.ownEntry.any (·.state == .connecting attempt)
  | _ => false

/-- Each entry has the task that it waits for, among the `tasks` of before the call or those
it has started: but for the focus a call is at. -/
structure Tended (tasks : List Spawned) (but : Option String) (p : MediaPool) : Prop
    extends OwnEntries p where
  driven : ∀ {key entry}, p.pool.lookup key = some entry → but ≠ some key →
    ∃ task ∈ tasks ++ upkeep p, drives key entry task
  idle : ∀ {key entry}, p.pool.lookup key = some entry → entry.isOwn = false →
    entry.members.isEmpty → .closeIfIdle key entry.idleGeneration idleGrace ∈ tasks ++ upkeep p
  opened : ∀ {key entry}, p.pool.lookup key = some entry → entry.isOwn = false →
    entry.backend.isSome
  held : p.own = none → p.ownEntry = none
  keyed : p.own.isSome → p.ownConnectionKey.isSome
  timed : ∀ {own}, p.own = some own → own.lostSince.isSome →
    expiry own p.ownReconnectBudget ∈ tasks ++ upkeep p
  unspent : ∀ {own}, p.own = some own → own.lostSince = none → own.budgetSpent →
    p.ownEntry = none

section
variable {p q r : MediaPool} {tasks : List Spawned} {but : Option String} {key : String}
  {entry : ManagedConnection}

theorem upkeep_spawn {task : Spawned} (other : isUpkeep task = false) :
    upkeep (p.spawn task) = upkeep p := by
  simp [upkeep, MediaPool.spawn, other]

theorem upkeep_started {task : Spawned} (is_upkeep : isUpkeep task = true) :
    upkeep (p.spawn task) = upkeep p ++ [task] := by
  simp [upkeep, MediaPool.spawn, is_upkeep]

theorem upkeep_foldl {α : Type} {f : MediaPool → α → MediaPool}
    (each : ∀ p x, upkeep (f p x) = upkeep p) (xs : List α) (p : MediaPool) :
    upkeep (xs.foldl f p) = upkeep p := by
  induction xs generalizing p with
  | nil => rfl
  | cons x rest ih => exact (ih (f p x)).trans (each p x)

theorem upkeep_applyConstraintsNow (memberId : String) (kind : MediaStreamKind) :
    upkeep (p.applyConstraintsNow memberId kind) = upkeep p := by
  unfold MediaPool.applyConstraintsNow
  split
  · split
    · exact upkeep_spawn rfl
    · rfl
    · rfl
  · rfl

theorem upkeep_reapplyConnectionConstraints (key : String) :
    upkeep (p.reapplyConnectionConstraints key) = upkeep p := by
  unfold MediaPool.reapplyConnectionConstraints
  split
  · rfl
  · refine upkeep_foldl (fun p stream => ?_) _ p
    split_ifs
    · exact upkeep_applyConstraintsNow _ _
    · rfl

theorem upkeep_markDegraded (key : String) : upkeep (p.markDegraded key) = upkeep p := by
  unfold MediaPool.markDegraded
  split_ifs
  · rfl
  · dsimp only
    split_ifs <;> rfl

theorem upkeep_clearDegraded (key : String) : upkeep (p.clearDegraded key) = upkeep p := by
  unfold MediaPool.clearDegraded
  split_ifs
  · dsimp only
    split_ifs <;> rfl
  · rfl

theorem upkeep_announceStream (memberId : String) (kind : MediaStreamKind) :
    upkeep (p.announceStream memberId kind) = upkeep p := by
  unfold MediaPool.announceStream
  dsimp only
  split_ifs
  · exact upkeep_applyConstraintsNow memberId kind
  · rfl

theorem upkeep_addTrack (memberId : String) (kind : MediaStreamKind) (pooled : PooledTrack) :
    upkeep (p.addTrack memberId kind pooled) = upkeep p := by
  unfold MediaPool.addTrack
  cases p.tracks.lookup (memberId, kind) with
  | some previous =>
      dsimp only
      split_ifs
      · rfl
      · exact upkeep_announceStream memberId kind
  | none => exact upkeep_announceStream memberId kind

theorem upkeep_removeTrack (memberId : String) (kind : MediaStreamKind) (key : String) :
    upkeep (p.removeTrack memberId kind key) = upkeep p := by
  unfold MediaPool.removeTrack
  split_ifs <;> rfl

theorem upkeep_retireTracks (key : String) : upkeep (p.retireTracks key) = upkeep p :=
  upkeep_foldl (fun _ (stream : String × MediaStreamKind) =>
    upkeep_removeTrack stream.1 stream.2 key) _ p

theorem upkeep_flushTracks (memberId identity : String) :
    upkeep (p.flushTracks memberId identity) = upkeep p :=
  upkeep_foldl (fun _ (buffered : MediaStreamKind × PooledTrack) =>
    upkeep_addTrack memberId buffered.1 buffered.2) _ _

theorem upkeep_flushKeys (memberId identity : String) :
    upkeep (p.flushKeys memberId identity) = upkeep p :=
  upkeep_foldl (fun p keyIndex =>
    (rfl : upkeep (p.emit (.keyImported memberId identity keyIndex)) = upkeep p)) _ _

theorem upkeep_mapMember (member : JoinedMembership) :
    upkeep (p.mapMember member) = upkeep p := by
  unfold MediaPool.mapMember
  split
  · rfl
  · next identity _ =>
      dsimp only
      rw [upkeep_flushKeys]
      split_ifs <;> exact upkeep_flushTracks (p := p.mapIdentity member.memberId identity) _ _

theorem upkeep_joinMember (member : JoinedMembership) :
    upkeep (p.joinMember member) = upkeep p := by
  unfold MediaPool.joinMember
  split_ifs
  · rfl
  · exact upkeep_mapMember member

theorem upkeep_joined (snapshot : List JoinedMembership) :
    upkeep (snapshot.foldl MediaPool.joinMember (p.forgetDeparted snapshot)) = upkeep p :=
  (upkeep_foldl (fun _ => upkeep_joinMember) snapshot _).trans
    (upkeep_foldl (fun p memberId => (rfl : upkeep (p.forgetMember memberId) = upkeep p)) _ p)

/-- What a connection brings while its link stands. -/
theorem upkeep_handleConnectionEvent {event : ConnectionEvent} (other : isLink event = false)
    (key : String) (now : ℕ) (takeOver : Except TransportError Unit) :
    upkeep (p.handleConnectionEvent key event now takeOver) = upkeep p := by
  cases event with
  | remoteJoined identity =>
      change upkeep (p.remoteJoined key identity) = upkeep p
      unfold MediaPool.remoteJoined
      split_ifs <;> rfl
  | remoteLeft identity => rfl
  | trackAdded identity kind track =>
      change upkeep (p.trackAdded key identity kind track) = upkeep p
      unfold MediaPool.trackAdded
      split
      · exact upkeep_addTrack _ kind _
      · rfl
  | trackRemoved identity kind =>
      change upkeep (p.trackRemoved key identity kind) = upkeep p
      unfold MediaPool.trackRemoved
      split
      · exact upkeep_removeTrack _ kind key
      · split <;> rfl
  | trackMuted identity kind =>
      change upkeep (p.muted identity kind true) = upkeep p
      unfold MediaPool.muted
      split <;> rfl
  | trackUnmuted identity kind =>
      change upkeep (p.muted identity kind false) = upkeep p
      unfold MediaPool.muted
      split <;> rfl
  | activeSpeakers speakers => rfl
  | encryptionStateChanged identity state =>
      change upkeep (p.encryptionStateChanged identity state) = upkeep p
      unfold MediaPool.encryptionStateChanged
      split <;> rfl
  | trackNotEncrypted identity kind =>
      change upkeep (p.trackNotEncrypted identity) = upkeep p
      unfold MediaPool.trackNotEncrypted
      dsimp only
      split <;> rfl
  | reconnecting | reconnected | closed message => cases other

theorem upkeep_keyImported (identity : String) (keyIndex : UInt8) :
    upkeep (p.keyImported identity keyIndex) = upkeep p := by
  unfold MediaPool.keyImported
  split
  · rfl
  · dsimp only
    split_ifs <;> rfl

theorem upkeep_setConstraints (memberId : String) (kind : MediaStreamKind)
    (constraints : MediaConstraints) :
    upkeep (p.setConstraints memberId kind constraints) = upkeep p := by
  unfold MediaPool.setConstraints
  exact upkeep_spawn rfl

theorem drives_congr {after : ManagedConnection} (state : after.state = entry.state)
    (own : after.isOwn = entry.isOwn) (generation : after.generation = entry.generation)
    {task : Spawned} : drives key after task ↔ drives key entry task := by
  unfold drives
  rw [state, own, generation]

theorem drives_connect {key' : String} {attempt : ℕ} :
    drives key entry (.connect key' attempt) ↔
      key' = key ∧ entry.state = .connecting attempt ∧ entry.isOwn = false := by
  unfold drives
  cases entry.state <;> cases entry.isOwn <;> simp [eq_comm]

theorem drives_retryConnect {key' : String} {attempt delay : ℕ} :
    drives key entry (.retryConnect key' attempt delay) →
      key' = key ∧ entry.state = .backoff attempt ∧ entry.isOwn = false := by
  unfold drives
  cases entry.state <;> cases entry.isOwn <;> simp +contextual [eq_comm]

theorem drives_ownAttempt {connection attempt : ℕ} {freshToken : Bool} :
    drives key entry (.ownAttempt connection attempt freshToken) ↔
      entry.state = .connecting attempt ∧ entry.isOwn = true := by
  unfold drives
  cases entry.state <;> cases entry.isOwn <;> simp [eq_comm]

theorem drives_ownRetry {attempt delay : ℕ} :
    drives key entry (.ownRetry attempt delay) →
      entry.state = .backoff attempt ∧ entry.isOwn = true := by
  unfold drives
  cases entry.state <;> cases entry.isOwn <;> simp +contextual [eq_comm]

theorem drives_forward {key' : String} {generation : ℕ} :
    drives key entry (.forward key' generation) ↔
      key' = key ∧ entry.state.isUp ∧ entry.generation = generation := by
  unfold drives
  cases entry.state <;> cases entry.isOwn <;> simp [ConnState.isUp, eq_comm]

/-- The tasks that an entry may wait for. -/
def isDriver : Spawned → Bool
  | .connect _ _ | .retryConnect _ _ _ | .ownAttempt _ _ _ | .ownRetry _ _ | .forward _ _ => true
  | _ => false

theorem isDriver_of_drives {task : Spawned} (h : drives key entry task) : isDriver task := by
  unfold drives at h
  cases entry.state <;> cases entry.isOwn <;> grind [isDriver]

theorem expiry_ne {task : Spawned} (other : isDriver task) (own : OwnRecovery) (budget : ℕ) :
    task ≠ expiry own budget := by
  unfold expiry
  split_ifs <;> rintro rfl <;> cases other

theorem closeIfIdle_ne {task : Spawned} (other : isDriver task) (key : String)
    (idleGeneration delay : ℕ) : task ≠ .closeIfIdle key idleGeneration delay := by
  rintro rfl
  cases other

theorem ownEntry_regroup (none_ : p.ownEntry = none) : p.regroup.ownEntry = none := by
  rw [MediaPool.ownEntry] at none_ ⊢
  cases is_key : p.ownConnectionKey with
  | none => rw [show p.regroup.ownConnectionKey = none from is_key, Option.bind_none]
  | some key =>
      rw [is_key, Option.bind_some] at none_
      rw [show p.regroup.ownConnectionKey = some key from is_key, Option.bind_some,
        lookup_regroup, none_, Option.map_none]

theorem awaits_mono (more : upkeep p ⊆ upkeep q) {task : Spawned}
    (there : task ∈ tasks ++ upkeep p) : task ∈ tasks ++ upkeep q :=
  (List.mem_append.mp there).elim (List.mem_append_left _)
    fun started => List.mem_append_right _ (more started)

namespace Tended

theorem of_same (h : Tended tasks but p) (pool : q.pool = p.pool)
    (ownKey : q.ownConnectionKey = p.ownConnectionKey) (own : q.own.isSome = p.own.isSome)
    (more : upkeep p ⊆ upkeep q)
    (timed : ∀ {own}, q.own = some own → own.lostSince.isSome →
      expiry own q.ownReconnectBudget ∈ tasks ++ upkeep q)
    (unspent : ∀ {own}, q.own = some own → own.lostSince = none → own.budgetSpent →
      p.ownEntry = none) : Tended tasks but q where
  toOwnEntries := h.toOwnEntries.of_same pool ownKey
  driven found apart := by
    obtain ⟨task, there, is_driver⟩ := h.driven (pool ▸ found) apart
    exact ⟨task, awaits_mono more there, is_driver⟩
  idle found notOwn none_ := awaits_mono more (h.idle (pool ▸ found) notOwn none_)
  opened found := h.opened (pool ▸ found)
  held none_ := by
    rw [MediaPool.ownEntry, ownKey, pool]
    rw [← Option.not_isSome_iff_eq_none, own, Option.not_isSome_iff_eq_none] at none_
    exact h.held none_
  keyed some_ := by
    rw [ownKey]
    exact h.keyed (own ▸ some_)
  timed := timed
  unspent is_own kept spent := by
    rw [MediaPool.ownEntry, ownKey, pool]
    exact unspent is_own kept spent

theorem rest (h : Tended tasks but p) (pool : q.pool = p.pool)
    (ownKey : q.ownConnectionKey = p.ownConnectionKey) (own : q.own = p.own)
    (budget : q.ownReconnectBudget = p.ownReconnectBudget) (more : upkeep p ⊆ upkeep q) :
    Tended tasks but q := by
  refine h.of_same pool ownKey (congrArg Option.isSome own) more (fun is_own lost => ?_)
    fun is_own => h.unspent (own ▸ is_own)
  rw [budget]
  exact awaits_mono more (h.timed (own ▸ is_own) lost)

theorem beside (h : Tended tasks but p) (beside : Beside p q) (same : upkeep q = upkeep p) :
    Tended tasks but q :=
  h.rest beside.pool beside.ownKey (congrArg Frame.own beside.frame)
    (congrArg Frame.ownReconnectBudget beside.frame) (same ▸ List.Subset.refl _)

theorem spawn (h : Tended tasks but p) (task : Spawned) : Tended tasks but (p.spawn task) := by
  refine h.rest rfl rfl rfl rfl fun before there => ?_
  obtain ⟨there, is_upkeep⟩ := List.mem_filter.mp there
  exact List.mem_filter.mpr ⟨List.mem_append_left _ there, is_upkeep⟩

theorem emit (h : Tended tasks but p) (event : PoolEvent) : Tended tasks but (p.emit event) :=
  h.rest rfl rfl rfl rfl (List.Subset.refl _)

theorem weaken (h : Tended tasks none p) : Tended tasks but p where
  toOwnEntries := h.toOwnEntries
  driven found _ := h.driven found nofun
  idle := h.idle
  opened := h.opened
  held := h.held
  keyed := h.keyed
  timed := h.timed
  unspent := h.unspent

theorem mark (h : Tended tasks but p) (key : String) : Tended tasks but (p.markDegraded key) :=
  h.beside (beside_markDegraded key) (upkeep_markDegraded key)

theorem clear (h : Tended tasks but p) (key : String) : Tended tasks but (p.clearDegraded key) :=
  h.beside (beside_clearDegraded key) (upkeep_clearDegraded key)

theorem settle (h : Tended tasks (some key) p)
    (driven : ∀ entry, p.pool.lookup key = some entry →
      ∃ task ∈ tasks ++ upkeep p, drives key entry task) : Tended tasks none p where
  toOwnEntries := h.toOwnEntries
  driven {other entry} found _ := by
    by_cases same : key = other
    · subst same
      exact driven entry found
    · exact h.driven found fun is_ => same (Option.some.inj is_)
  idle := h.idle
  opened := h.opened
  held := h.held
  keyed := h.keyed
  timed := h.timed
  unspent := h.unspent

/-- A task is over that nothing waits for any more. -/
theorem drop {task : Spawned} {but' : Option String} (h : Tended (task :: tasks) but p)
    (less : but = none ∨ but = but')
    (driven : ∀ {key entry}, p.pool.lookup key = some entry → but' ≠ some key →
      ¬ drives key entry task)
    (idle : ∀ {key entry}, p.pool.lookup key = some entry → entry.isOwn = false →
      entry.members.isEmpty → task ≠ .closeIfIdle key entry.idleGeneration idleGrace)
    (timed : ∀ {own}, p.own = some own → own.lostSince.isSome →
      task ≠ expiry own p.ownReconnectBudget) : Tended tasks but' p where
  toOwnEntries := h.toOwnEntries
  driven {key entry} found apart := by
    have still : but ≠ some key := by
      obtain rfl | rfl := less
      · exact nofun
      · exact apart
    obtain ⟨other, there, is_driver⟩ := h.driven found still
    obtain rfl | there := List.mem_cons.mp there
    · exact absurd is_driver (driven found apart)
    · exact ⟨other, there, is_driver⟩
  idle found notOwn none_ :=
    (List.mem_cons.mp (h.idle found notOwn none_)).resolve_left fun same =>
      idle found notOwn none_ same.symm
  opened := h.opened
  held := h.held
  keyed := h.keyed
  timed is_own lost :=
    (List.mem_cons.mp (h.timed is_own lost)).resolve_left fun same => timed is_own lost same.symm
  unspent := h.unspent

theorem dropDriver {task : Spawned} (h : Tended (task :: tasks) none p) (is_driver : isDriver task)
    (driven : ∀ {key entry}, p.pool.lookup key = some entry → but ≠ some key →
      ¬ drives key entry task) : Tended tasks but p :=
  h.drop (.inl rfl) driven (fun _ _ _ => closeIfIdle_ne is_driver _ _ _)
    fun _ _ => expiry_ne is_driver _ _

theorem dropOther {task : Spawned} (h : Tended (task :: tasks) none p) (other : ¬ isDriver task)
    (idle : ∀ {key entry}, p.pool.lookup key = some entry → entry.isOwn = false →
      entry.members.isEmpty → task ≠ .closeIfIdle key entry.idleGeneration idleGrace)
    (timed : ∀ {own}, p.own = some own → own.lostSince.isSome →
      task ≠ expiry own p.ownReconnectBudget) : Tended tasks none p :=
  h.drop (.inl rfl) (fun _ _ is_driver => other (isDriver_of_drives is_driver)) idle timed

theorem setEntry (h : Tended tasks but p) (kept : OwnEntries (p.setEntry key entry))
    (driven : but = some key ∨ ∃ task ∈ tasks ++ upkeep p, drives key entry task)
    (idle : entry.isOwn = false → entry.members.isEmpty →
      .closeIfIdle key entry.idleGeneration idleGrace ∈ tasks ++ upkeep p)
    (opened : entry.isOwn = false → entry.backend.isSome)
    (held : p.ownConnectionKey = some key → p.own ≠ none ∧
      ∀ own, p.own = some own → own.lostSince = none → own.budgetSpent = false) :
    Tended tasks but (p.setEntry key entry) where
  toOwnEntries := kept
  driven {other _} found apart := by
    obtain ⟨rfl, rfl⟩ | ⟨-, found⟩ := of_lookup_insert found
    · exact driven.resolve_left apart
    · exact h.driven found apart
  idle found := by
    obtain ⟨rfl, rfl⟩ | ⟨-, found⟩ := of_lookup_insert found
    · exact idle
    · exact h.idle found
  opened found := by
    obtain ⟨rfl, rfl⟩ | ⟨-, found⟩ := of_lookup_insert found
    · exact opened
    · exact h.opened found
  held none_ := by
    rw [ownEntry_setEntry fun is_key => (held is_key).1 none_]
    exact h.held none_
  keyed := h.keyed
  timed := h.timed
  unspent {own} is_own kept spent := by
    have peer : p.ownConnectionKey ≠ some key := fun is_key => by
      rw [(held is_key).2 own is_own kept] at spent
      cases spent
    rw [ownEntry_setEntry peer]
    exact h.unspent is_own kept spent

theorem recovers (h : Tended tasks but p) (some_ : p.ownEntry ≠ none) : p.own ≠ none ∧
    ∀ own, p.own = some own → own.lostSince = none → own.budgetSpent = false :=
  ⟨fun none_ => some_ (h.held none_), fun _ is_own kept =>
    Bool.eq_false_iff.mpr fun spent => some_ (h.unspent is_own kept spent)⟩

theorem recovered (h : Tended tasks but p) (is_entry : p.ownEntry = some entry) :
    ∃ own, p.own = some own := by
  have some_ : p.ownEntry ≠ none := by
    rw [is_entry]
    exact Option.some_ne_none entry
  exact Option.ne_none_iff_exists'.mp (h.recovers some_).1

/-- An entry changes in its state and its number. -/
theorem setState (h : Tended tasks but p) {after : ManagedConnection}
    (found : p.pool.lookup key = some entry)
    (driven : but = some key ∨ ∃ task ∈ tasks ++ upkeep p, drives key after task)
    (own : after.isOwn = entry.isOwn) (backend : after.backend = entry.backend)
    (members : after.members = entry.members)
    (idleGeneration : after.idleGeneration = entry.idleGeneration) :
    Tended tasks but (p.setEntry key after) := by
  refine h.setEntry (h.toOwnEntries.setState found own backend) driven (fun notOwn none_ => ?_)
    (fun notOwn => ?_) fun is_key => ?_
  · rw [idleGeneration]
    exact h.idle found (own ▸ notOwn) (members ▸ none_)
  · rw [backend]
    exact h.opened found (own ▸ notOwn)
  · refine h.recovers ?_
    rw [MediaPool.ownEntry, is_key, Option.bind_some, found]
    exact fun h => by cases h

theorem setDriven (h : Tended tasks (some key) p) {after : ManagedConnection}
    (found : p.pool.lookup key = some entry) {task : Spawned} (is_upkeep : isUpkeep task)
    (driven : drives key after task) (own : after.isOwn = entry.isOwn)
    (backend : after.backend = entry.backend) (members : after.members = entry.members)
    (idleGeneration : after.idleGeneration = entry.idleGeneration) :
    Tended tasks none ((p.setEntry key after).spawn task) := by
  have set := h.setState found (.inl rfl) own backend members idleGeneration
  refine (set.spawn task).settle fun entry there => ?_
  obtain rfl : after = entry := Option.some.inj ((AList.lookup_insert p.pool).symm.trans there)
  refine ⟨task, List.mem_append_right _ ?_, driven⟩
  rw [upkeep_started is_upkeep]
  exact List.mem_append_right _ (.head _)

theorem removeEntry (h : Tended tasks (some key) p) : Tended tasks none (p.removeEntry key) where
  toOwnEntries := h.toOwnEntries.removeEntry key
  driven found _ := by
    obtain ⟨differs, found⟩ := of_lookup_erase found
    exact h.driven found fun same => differs (Option.some.inj same).symm
  idle found := h.idle (of_lookup_erase found).2
  opened found := h.opened (of_lookup_erase found).2
  held none_ := by
    by_cases is_key : p.ownConnectionKey = some key
    · rw [MediaPool.ownEntry, show (p.removeEntry key).ownConnectionKey = some key from is_key]
      exact AList.lookup_erase key p.pool
    · rw [ownEntry_removeEntry is_key]
      exact h.held none_
  keyed := h.keyed
  timed := h.timed
  unspent is_own kept spent := by
    by_cases is_key : p.ownConnectionKey = some key
    · rw [MediaPool.ownEntry, show (p.removeEntry key).ownConnectionKey = some key from is_key]
      exact AList.lookup_erase key p.pool
    · rw [ownEntry_removeEntry is_key]
      exact h.unspent is_own kept spent

theorem startConnect (h : Tended tasks but p) (found : p.pool.lookup key = some entry)
    (notOwn : entry.isOwn = false) (only : but = none ∨ but = some key) (attempt : ℕ) :
    Tended tasks none (p.startConnect key attempt) := by
  have backed := h.opened found notOwn
  have at_ : Tended tasks (some key) p := by
    obtain rfl | rfl := only
    · exact h.weaken
    · exact h
  have unopened : entry.backend.isNone = false := by
    rw [← Option.not_isSome, backed]
    rfl
  unfold MediaPool.startConnect
  rw [found]
  dsimp only
  rw [if_neg (Bool.not_eq_true _ ▸ unopened)]
  exact at_.setDriven found rfl (drives_connect.mpr ⟨rfl, rfl, notOwn⟩) rfl rfl rfl rfl

theorem openPeer (h : Tended tasks none p) (key : String) (backend : MediaTransport)
    {members : List String} (someone : members.isEmpty = false) :
    Tended tasks none (p.openPeer key backend members) := by
  unfold MediaPool.openPeer
  split_ifs with is_own
  · exact h
  · have kept := (aside_setPeer
      { backend := some backend, members := members, isOwn := false, state := .connecting 0
        generation := 0, idleGeneration := 0 } is_own rfl).entries h.toOwnEntries
    have placed : Tended tasks (some key) (p.setEntry key
        { backend := some backend, members := members, isOwn := false, state := .connecting 0
          generation := 0, idleGeneration := 0 }) := by
      refine h.weaken.setEntry kept (.inl rfl) (fun _ none_ => ?_) (fun _ => rfl)
        fun is_key => absurd is_key is_own
      rw [someone] at none_
      cases none_
    exact placed.startConnect (AList.lookup_insert p.pool) rfl (.inr rfl) 0

theorem regroup (h : Tended tasks but p) : Tended tasks but p.regroup where
  toOwnEntries := aside_regroup.entries h.toOwnEntries
  driven {key entry} found apart := by
    rw [lookup_regroup, Option.map_eq_some_iff] at found
    obtain ⟨before, was, rfl⟩ := found
    obtain ⟨task, there, is_driver⟩ := h.driven was apart
    refine ⟨task, awaits_mono (fun task there => ?_) there,
      (drives_congr rfl rfl rfl).mpr is_driver⟩
    obtain ⟨there, is_upkeep⟩ := List.mem_filter.mp there
    exact List.mem_filter.mpr ⟨List.mem_append_left _ there, is_upkeep⟩
  idle {key entry} found notOwn none_ := by
    refine List.mem_append_right _ (List.mem_filter.mpr ⟨List.mem_append_right _ ?_, rfl⟩)
    refine List.mem_map.mpr ⟨⟨key, entry⟩, List.mem_filter.mpr ⟨?_, ?_⟩, rfl⟩
    · exact lookup_eq_some_iff.mp found
    · rw [none_, notOwn]
      rfl
  opened found notOwn := by
    rw [lookup_regroup, Option.map_eq_some_iff] at found
    obtain ⟨before, was, rfl⟩ := found
    have opened := h.opened was notOwn
    exact opened
  held none_ := ownEntry_regroup (h.held none_)
  keyed := h.keyed
  unspent is_own kept spent := ownEntry_regroup (h.unspent is_own kept spent)
  timed is_own lost := by
    refine awaits_mono (fun task there => ?_) (h.timed is_own lost)
    obtain ⟨there, is_upkeep⟩ := List.mem_filter.mp there
    exact List.mem_filter.mpr ⟨List.mem_append_left _ there, is_upkeep⟩

theorem reconcilePool (h : Tended tasks none p) : Tended tasks none p.reconcilePool := by
  unfold MediaPool.reconcilePool
  extract_lets missing
  have asked : ∀ e ∈ missing, e.2.2.isEmpty = false := fun e there =>
    members_of_desired (lookup_eq_some_iff.mpr (List.mem_filter.mp there).1)
  have regrouped := h.regroup
  generalize p.regroup = q at regrouped
  clear_value missing
  induction missing generalizing q with
  | nil => exact regrouped
  | cons e rest ih =>
      have opened := regrouped.openPeer e.1 e.2.1 (asked e (.head _))
      exact ih (fun other there => asked other (.tail _ there)) _ opened

theorem applySnapshot (h : Tended tasks none p) (snapshot : List JoinedMembership) :
    Tended tasks none (p.applySnapshot snapshot) := by
  unfold MediaPool.applySnapshot
  have joined := h.beside (calm_joined snapshot).beside (upkeep_joined snapshot)
  generalize snapshot.foldl MediaPool.joinMember (p.forgetDeparted snapshot) = q at joined
  have named : Tended tasks none { q with membersSnapshot := snapshot } :=
    joined.rest rfl rfl rfl rfl (List.Subset.refl _)
  exact named.reconcilePool

theorem startOwnLoss (h : Tended tasks but p) (some_ : p.ownEntry ≠ none) (now : ℕ) :
    Tended tasks but (p.startOwnLoss now) := by
  unfold MediaPool.startOwnLoss
  split
  · next key own _ is_own =>
      split_ifs with lasts
      · exact h
      · extract_lets epoch timed budgeted armed
        have unspent := (h.recovers some_).2 own is_own
          (Option.not_isSome_iff_eq_none.mp lasts)
        have more : upkeep p ⊆ upkeep budgeted := by
          rw [show upkeep budgeted = upkeep p ++ [.ownBudget epoch p.ownReconnectBudget] from
            upkeep_started (p := timed) rfl]
          exact List.subset_append_left _ _
        have toBudgeted : Tended tasks but budgeted := by
          refine h.of_same rfl rfl (by rw [is_own]; rfl) more (fun is_own' _ => ?_)
            fun is_own' kept => ?_
          · cases is_own'
            rw [expiry, if_neg (by simp [unspent])]
            exact List.mem_append_right _ (List.mem_filter.mpr
              ⟨List.mem_append_right _ (.head _), rfl⟩)
          · cases is_own'
            cases kept
        refine mark (?_ : Tended tasks but armed) key
        unfold armed
        split_ifs
        · exact toBudgeted.spawn _
        · exact toBudgeted
  · exact h

theorem endOwnLoss (h : Tended tasks but p) : Tended tasks but p.endOwnLoss := by
  unfold MediaPool.endOwnLoss
  split
  · exact h
  · next own is_own =>
      dsimp only
      split_ifs with lasts
      · refine h.of_same rfl rfl (by rw [is_own]; rfl) (List.Subset.refl _) (fun is_own lost => ?_)
          fun is_own _ spent => ?_
        · cases is_own
          cases lost
        · cases is_own
          cases spent
      · exact h.rest rfl rfl rfl rfl (List.Subset.refl _)

theorem setOwn (h : Tended tasks but p) {own after : OwnRecovery} (is_own : p.own = some own)
    (lostSince : after.lostSince = own.lostSince) (epoch : after.epoch = own.epoch)
    (spent : after.budgetSpent = own.budgetSpent) :
    Tended tasks but { p with own := some after } := by
  refine h.of_same rfl rfl (by rw [is_own]; rfl) (List.Subset.refl _) (fun is_own' lost => ?_)
    fun is_own' kept is_spent => ?_
  · cases is_own'
    rw [expiry, spent, epoch]
    exact h.timed is_own (lostSince ▸ lost)
  · cases is_own'
    exact h.unspent is_own (lostSince ▸ kept) (spent ▸ is_spent)

/-- An attempt at our own focus takes the place of what was there. -/
theorem attempted (h : Tended tasks (some key) p) (is_key : p.ownConnectionKey = some key)
    {own : OwnRecovery} (is_own : p.own = some own) (attempt : ℕ) :
    Tended tasks none (p.spawnOwnAttempt attempt) := by
  unfold MediaPool.spawnOwnAttempt
  split
  · next key' own' is_key' is_own' =>
      cases is_key.symm.trans is_key'
      extract_lets q r
      have asked : Tended tasks (some key) q := h.setOwn is_own' rfl rfl rfl
      unfold r
      split
      · next entry found =>
          have ours := (asked.own found).mpr is_key
          exact asked.setDriven found rfl (drives_ownAttempt.mpr ⟨rfl, ours⟩) rfl rfl rfl rfl
      · next none_ =>
          refine (asked.spawn _).settle fun entry there => ?_
          cases none_.symm.trans there
  · next none_ => exact absurd is_own (none_ key own is_key)

theorem lose (h : Tended tasks (some key) p) (is_key : p.ownConnectionKey = some key)
    {own : OwnRecovery} (is_own : p.own = some own) (found : p.pool.lookup key = some entry)
    (now attempt : ℕ) : Tended tasks none ((p.startOwnLoss now).spawnOwnAttempt attempt) := by
  have quiet := PoolMoves.quiet_startOwnLoss (p := p) now
  have begins := congrArg OwnSide.own (side_startOwnLoss now is_key is_own)
  have some_ : p.ownEntry ≠ none := by
    rw [MediaPool.ownEntry, is_key, Option.bind_some, found]
    exact fun h => by cases h
  exact (h.startOwnLoss some_ now).attempted (quiet.ownKey.trans is_key) begins attempt

theorem spawnOwnAttempt (h : Tended tasks none p) (attempt : ℕ) :
    Tended tasks none (p.spawnOwnAttempt attempt) := by
  cases is_key : p.ownConnectionKey with
  | none =>
      rw [MediaPool.spawnOwnAttempt, is_key]
      exact h
  | some key =>
      cases is_own : p.own with
      | none =>
          rw [MediaPool.spawnOwnAttempt, is_key, is_own]
          exact h
      | some own => exact h.weaken.attempted is_key is_own attempt

theorem giveUpOwn (h : Tended tasks (some key) p) (is_key : p.ownConnectionKey = some key)
    (reason : OwnConnectionLoss) (message : String) :
    Tended tasks none (p.giveUpOwn reason message) := by
  unfold MediaPool.giveUpOwn
  split
  · next none_ => cases is_key.symm.trans none_
  · next key' is_key' =>
      cases is_key.symm.trans is_key'
      extract_lets q dropped cleared
      have unaimed : Tended tasks (some key) q := h.rest rfl rfl rfl rfl (List.Subset.refl _)
      have removed : Tended tasks none dropped :=
        (unaimed.beside (calm_dropped key).beside rfl).removeEntry
      have gone : dropped.ownEntry = none := by
        rw [MediaPool.ownEntry, show dropped.ownConnectionKey = some key from is_key]
        exact AList.lookup_erase key p.pool
      have lost : Tended tasks none { dropped with own := none, ownLost := true } :=
        { toOwnEntries := removed.toOwnEntries.of_same rfl rfl
          driven := removed.driven
          idle := removed.idle
          opened := removed.opened
          held := fun _ => gone
          keyed := fun h => by cases h
          timed := fun h => by cases h
          unspent := fun h => by cases h }
      exact ((lost.clear key).emit _).emit _

theorem giveUpOwnBudget (h : Tended tasks (some key) p) (is_key : p.ownConnectionKey = some key)
    (some_ : p.own ≠ none) : Tended tasks none p.giveUpOwnBudget := by
  unfold MediaPool.giveUpOwnBudget
  split
  · next none_ => exact absurd none_ some_
  · exact h.giveUpOwn is_key _ _

theorem ownBackoff (h : Tended tasks (some key) p) (is_key : p.ownConnectionKey = some key)
    (attempt now : ℕ) : Tended tasks none (p.ownBackoff attempt now) := by
  unfold MediaPool.ownBackoff
  split
  · next none_ => cases is_key.symm.trans none_
  · next key' is_key' =>
      cases is_key.symm.trans is_key'
      extract_lets q left delay
      have soon : left.elim delay (min delay) ≤ ownBackoffMax := by
        have bound : delay ≤ ownBackoffMax := min_le_right _ _
        cases left with
        | none => exact bound
        | some time => exact (min_le_left _ _).trans bound
      unfold q
      split
      · next entry found =>
          have ours := (h.own found).mpr is_key
          refine h.setDriven found rfl ?_ rfl rfl rfl rfl
          unfold drives
          rw [ours]
          exact ⟨_, soon, rfl⟩
      · next none_ =>
          refine (h.spawn _).settle fun entry there => ?_
          cases none_.symm.trans there

theorem installed (h : Tended tasks (some key) p) (found : p.pool.lookup key = some entry)
    (connection : ℕ) : Tended tasks none (p.installed key entry connection) := by
  unfold MediaPool.installed
  extract_lets generation numbered set
  have toNumbered : Tended tasks (some key) numbered :=
    h.rest rfl rfl rfl rfl (List.Subset.refl _)
  exact toNumbered.setDriven found rfl (drives_forward.mpr ⟨rfl, rfl, rfl⟩) rfl rfl rfl rfl

/-- Another focus becomes ours, and the focus that was has no entry. -/
theorem takenOver (h : Tended tasks none p) {ownKey target : String} {own : OwnRecovery}
    (is_key : p.ownConnectionKey = some ownKey) (is_own : p.own = some own)
    (lost : own.lostSince.isSome) (found : p.pool.lookup target = some entry)
    (up : entry.state.isUp) :
    Tended tasks none { (p.removeEntry ownKey).setEntry target { entry with
      isOwn := true, backend := none, state := .up own.connection } with
      ownConnectionKey := some target, own := some { own with everUp := true } } where
  toOwnEntries := (h.toOwnEntries.taken is_key target rfl rfl).of_same rfl rfl
  driven {key _} there _ := by
    obtain ⟨rfl, rfl⟩ | ⟨-, there⟩ := of_lookup_insert there
    · obtain ⟨task, awaited, is_driver⟩ := h.driven found nofun
      refine ⟨task, awaited, ?_⟩
      unfold drives at is_driver ⊢
      obtain ⟨connection, is_up⟩ : ∃ connection, entry.state = .up connection := by
        cases state : entry.state with
        | up connection => exact ⟨connection, rfl⟩
        | connecting | backoff =>
            rw [state] at up
            cases up
      rw [is_up] at is_driver
      exact is_driver
    · exact h.driven (of_lookup_erase there).2 nofun
  idle {key _} there notOwn := by
    obtain ⟨rfl, rfl⟩ | ⟨-, there⟩ := of_lookup_insert there
    · cases notOwn
    · exact h.idle (of_lookup_erase there).2 notOwn
  opened {key _} there notOwn := by
    obtain ⟨rfl, rfl⟩ | ⟨-, there⟩ := of_lookup_insert there
    · cases notOwn
    · exact h.opened (of_lookup_erase there).2 notOwn
  held none_ := nomatch none_
  keyed _ := rfl
  timed is_own' lost' := by
    cases is_own'
    have timed := h.timed is_own lost'
    exact timed
  unspent is_own' kept := by
    cases is_own'
    rw [show own.lostSince = none from kept] at lost
    cases lost

/-- Our media moves to a focus that is up; the one it leaves is opened again for whoever is
there. -/
theorem movedTo (h : Tended tasks none p) {ownKey target : String} {own : OwnRecovery}
    (transport : RtcTransport) (is_key : p.ownConnectionKey = some ownKey)
    (is_own : p.own = some own) (lost : own.lostSince.isSome) (differs : target ≠ ownKey)
    (found : p.pool.lookup target = some entry) (up : entry.state.isUp) :
    Tended tasks none (p.movedTo ownKey target own transport) := by
  unfold MediaPool.movedTo
  extract_lets up_ gone taken renamed told opened
  have stays : gone.pool.lookup target = some entry := (AList.lookup_erase_ne differs).trans found
  have entered : taken = gone.setEntry target { entry with
      isOwn := true, backend := none, state := .up own.connection } := by
    unfold taken
    rw [stays]
  have named : Tended tasks none { taken with ownConnectionKey := some target } := by
    have over_ := h.takenOver is_key is_own lost found up
    rw [entered]
    exact over_.rest rfl rfl rfl rfl (List.Subset.refl _)
  have reconciled : Tended tasks none opened := ((named.endOwnLoss.emit _).emit _).reconcilePool
  split_ifs
  · exact reconciled.clear ownKey
  · exact reconciled

theorem tryFallback (h : Tended tasks none p) (now : ℕ) (takeOver : Except TransportError Unit) :
    Tended tasks none (p.tryFallback now takeOver) := by
  have aims (may : Bool) (choice : Option String) : Tended tasks none
      { p with sfuFallback := may, fallbackTarget := choice } :=
    h.rest rfl rfl rfl rfl (List.Subset.refl _)
  unfold MediaPool.tryFallback
  split
  · exact h
  · next ownKey target choice =>
      obtain ⟨is_key, differs, -, own', is_own', lost⟩ := fallbackChoice_spec choice
      split_ifs
      · unfold MediaPool.fallBack
        split
        · next own transport entry is_own _ found =>
            cases is_own'.symm.trans is_own
            split_ifs with up
            · split
              · exact aims false none
              · exact h.movedTo transport is_key is_own lost differs found up
            · exact h
        · exact h
      · exact aims p.sfuFallback (some target)

theorem peerUp (h : Tended tasks none p) (key : String) (now : ℕ)
    (takeOver : Except TransportError Unit) : Tended tasks none (p.peerUp key now takeOver) := by
  unfold MediaPool.peerUp
  split_ifs
  · exact h
  · exact h.tryFallback now takeOver

/-- The result of a connect that the entry under the key waited for, if it did. -/
theorem connectFinished (h : Tended tasks (some key) p) {attempt : ℕ}
    (other : (∀ entry, p.pool.lookup key = some entry → entry.state = .connecting attempt →
      entry.isOwn = true) → Tended tasks none p)
    (result : Except TransportError ℕ) (now : ℕ) (takeOver : Except TransportError Unit)
    (sound : spoils p (.handle (.connectFinished key attempt result)) = false) :
    Tended tasks none (p.connectFinished key attempt result now takeOver) := by
  have closeStray {q : MediaPool} (kept : Tended tasks none q) :
      Tended tasks none (q.closeStray result) := by
    cases result with
    | ok connection => exact kept.spawn _
    | error error => exact kept
  unfold MediaPool.connectFinished
  split
  · next none_ => exact closeStray (other fun entry found => nomatch none_.symm.trans found)
  · next entry found =>
      split_ifs with differs empty
      · refine closeStray (other fun entry' found' waits => absurd waits ?_)
        cases found.symm.trans found'
        exact differs
      · exact closeStray (h.removeEntry.clear key)
      · rw [not_not] at differs
        cases result with
        | ok connection => exact ((h.installed found connection).clear key).peerUp key now takeOver
        | error error =>
            have notOwn : entry.isOwn = false := by
              by_contra is_own
              rw [Bool.not_eq_false] at is_own
              have is_key := (h.own found).mp is_own
              simp [spoils, is_key, MediaPool.ownEntry, found, differs] at sound
            have there := (beside_markDegraded (p := p) key).pool ▸ found
            refine (h.mark key).setDriven there rfl ?_ rfl rfl rfl rfl
            unfold drives
            rw [notOwn]

theorem retryConnect (h : Tended tasks (some key) p) {attempt : ℕ}
    (other : (∀ entry, p.pool.lookup key = some entry → entry.state = .backoff attempt →
      entry.isOwn = true) → Tended tasks none p) :
    Tended tasks none (p.retryConnect key attempt) := by
  unfold MediaPool.retryConnect
  split
  · next none_ => exact other fun entry found => nomatch none_.symm.trans found
  · next entry found =>
      split_ifs with differs empty
      · refine other fun entry' found' waits => absurd waits ?_
        cases found.symm.trans found'
        exact differs
      · exact h.removeEntry.clear key
      · cases own : entry.isOwn with
        | false => exact h.startConnect found own (.inr rfl) attempt
        | true =>
            have unopened := h.backend found own
            have kept := other fun entry' found' _ => by
              cases found.symm.trans found'
              exact own
            rw [MediaPool.startConnect, found]
            dsimp only
            rw [unopened, Option.isNone_none, if_pos rfl]
            exact kept

/-- The end of a connection that the entry under the key had, if it did. -/
theorem connectionDown (h : Tended tasks (some key) p) {generation : ℕ}
    (other : (∀ entry, p.pool.lookup key = some entry → entry.state.isUp →
      entry.generation ≠ generation) → Tended tasks none p) (message : String) (now : ℕ) :
    Tended tasks none (p.connectionDown key generation message now) := by
  have dropped : Tended tasks (some key) ((p.dropUnmappedOn key).dropPendingFrom key) :=
    h.beside (calm_dropped key).beside rfl
  have marked := (dropped.beside (calm_retireTracks key).beside (upkeep_retireTracks key)).mark key
  have beside := ((calm_dropped (p := p) key).beside.trans (calm_retireTracks key).beside).trans
    (beside_markDegraded key)
  unfold MediaPool.connectionDown
  split
  · next none_ => exact other fun entry found => nomatch none_.symm.trans found
  · next entry found =>
      have there := beside.pool ▸ found
      split_ifs with replaced unrecovered is_own empty
      · refine other fun entry' found' up same => ?_
        cases found.symm.trans found'
        simp [same, up] at replaced
      · rw [Bool.and_eq_true] at unrecovered
        exact dropped.giveUpOwn ((h.own found).mp unrecovered.1) _ _
      · have is_key := (marked.own there).mp is_own
        rw [Bool.and_eq_true, not_and, Option.isNone_iff_eq_none] at unrecovered
        obtain ⟨own, recovers⟩ := Option.ne_none_iff_exists'.mp (unrecovered is_own)
        exact marked.lose is_key ((congrArg Frame.own beside.frame).trans recovers) there now 0
      · exact marked.removeEntry.clear key
      · refine marked.setDriven there rfl ?_ rfl rfl rfl rfl
        unfold drives
        rw [Bool.not_eq_true] at is_own
        rw [is_own]

theorem closeEntry (h : Tended tasks but p) (entry : ManagedConnection) :
    Tended tasks but (p.closeEntry entry) := by
  unfold MediaPool.closeEntry
  split
  · exact h.spawn _
  · exact h
  · exact h

/-- The idle timer of the connection under the key, if it was its. -/
theorem closeIfIdle {idleGeneration delay : ℕ}
    (h : Tended (.closeIfIdle key idleGeneration delay :: tasks) none p) :
    Tended tasks none (p.closeIfIdle key idleGeneration) := by
  unfold MediaPool.closeIfIdle
  split_ifs with closes
  · extract_lets dropped closed
    have removed : Tended (.closeIfIdle key idleGeneration delay :: tasks) none dropped :=
      (h.beside (calm_dropped key).beside rfl).weaken.removeEntry
    have over_ : Tended tasks none dropped := by
      refine removed.dropOther nofun (fun {other entry} found _ _ same => ?_) fun _ _ same => ?_
      · cases same
        exact (of_lookup_erase found).1 rfl
      · unfold expiry at same
        split_ifs at same
    refine clear (?_ : Tended tasks none closed) key
    unfold closed
    split
    · exact over_.closeEntry _
    · exact over_
  · refine h.dropOther nofun (fun {other entry} found notOwn none_ same => closes ?_)
      fun _ _ same => ?_
    · cases same
      simp [MediaPool.idleCloses, found, notOwn, none_]
    · unfold expiry at same
      split_ifs at same

theorem reconnected (h : Tended tasks none p) (key : String) (now : ℕ)
    (takeOver : Except TransportError Unit) :
    Tended tasks none (p.reconnected key now takeOver) := by
  unfold MediaPool.reconnected
  extract_lets ended
  have toEnded : Tended tasks none ended := by
    unfold ended
    split_ifs
    · exact h.endOwnLoss
    · exact h
  exact ((toEnded.clear key).peerUp key now takeOver).beside
    (calm_reapplyConnectionConstraints key).beside (upkeep_reapplyConnectionConstraints key)

theorem handleConnectionEvent (h : Tended tasks none p) {generation : ℕ}
    (current : p.isCurrent key generation) (event : ConnectionEvent) (now : ℕ)
    (takeOver : Except TransportError Unit) :
    Tended tasks none (p.handleConnectionEvent key event now takeOver) := by
  cases event with
  | reconnecting =>
      have marked := h.mark key
      change Tended tasks none (p.reconnecting key now)
      unfold MediaPool.reconnecting
      dsimp only
      split_ifs with is_key
      · refine marked.startOwnLoss ?_ now
        obtain ⟨entry, found, -⟩ := (Option.any_eq_true _ _).mp current
        rw [MediaPool.ownEntry, is_key, Option.bind_some,
          (beside_markDegraded (p := p) key).pool, found]
        exact fun h => by cases h
      · exact marked
  | reconnected => exact h.reconnected key now takeOver
  | closed message => exact h.weaken.connectionDown (fun _ => h) message now
  | _ =>
      exact h.beside (calm_handleConnectionEvent rfl key now takeOver).beside
        (upkeep_handleConnectionEvent rfl key now takeOver)

theorem ours (h : Tended tasks but p) (found : p.pool.lookup key = some entry)
    (own : entry.isOwn = true) : p.ownConnectionKey = some key ∧ p.ownEntry = some entry := by
  have is_key := (h.own found).mp own
  refine ⟨is_key, ?_⟩
  rw [MediaPool.ownEntry, is_key, Option.bind_some, found]

/-- The answer to an attempt at our own focus, where our entry waited for it. -/
theorem ownConnectFinished {connection attempt : ℕ} {freshToken : Bool}
    (h : Tended (.ownAttempt connection attempt freshToken :: tasks) none p)
    (result : Except TransportError Unit) (now : ℕ) :
    Tended tasks none (p.ownConnectFinished attempt result now) := by
  have kept_ (not_ : ∀ key own entry, p.ownConnectionKey = some key → p.own = some own →
      p.pool.lookup key = some entry → entry.state ≠ .connecting attempt) :
      Tended tasks none p := by
    refine h.dropDriver rfl fun {key entry} found _ drives => ?_
    obtain ⟨waits, own⟩ := drives_ownAttempt.mp drives
    obtain ⟨is_key, is_entry⟩ := h.ours found own
    obtain ⟨own, is_own⟩ := h.recovered is_entry
    exact not_ key own entry is_key is_own found waits
  unfold MediaPool.ownConnectFinished
  split
  · next key own is_key is_own =>
      split
      · next none_ =>
          have kept : Tended tasks none p := by
            refine kept_ fun key' own' entry is_key' _ found waits => ?_
            cases is_key.symm.trans is_key'
            rw [found] at none_
            simp [waits] at none_
          cases result with
          | ok =>
              dsimp only
              split_ifs
              · exact kept.spawn _
              · exact kept
          | error error => exact kept
      · next entry waits =>
          have found := (Option.filter_eq_some_iff.mp waits).1
          have at_ : Tended tasks (some key) p := by
            refine h.dropDriver rfl fun {other entry} there apart drives => apart ?_
            have ours := h.ours there (drives_ownAttempt.mp drives).2
            exact is_key.symm.trans ours.1
          have some_ : p.own ≠ none := fun none_ => nomatch is_own.symm.trans none_
          cases result with
          | ok =>
              dsimp only
              have everUp : Tended tasks (some key)
                  { p with own := some { own with everUp := true } } :=
                at_.setOwn is_own rfl rfl rfl
              exact ((everUp.installed found own.connection).endOwnLoss.clear key).beside
                (calm_reapplyConnectionConstraints key).beside
                (upkeep_reapplyConnectionConstraints key)
          | error error =>
              have refetches : Tended tasks (some key) { p with own := some { own with
                  tokenRefetched := true, refetchNext := true } } := at_.setOwn is_own rfl rfl rfl
              dsimp only
              split_ifs
              · cases error with
                | tokenRejected message | refused message => exact at_.giveUpOwn is_key _ _
                | unsupported | connect | closed => exact at_.giveUpOwnBudget is_key some_
              all_goals
                cases error with
                | tokenRejected message =>
                    first
                    | exact at_.giveUpOwn is_key _ _
                    | exact refetches.ownBackoff is_key _ now
                | refused message => exact at_.giveUpOwn is_key _ _
                | unsupported | connect | closed => exact at_.ownBackoff is_key _ now
  · next none_ =>
      exact kept_ fun key own _ is_key is_own => absurd is_own (none_ key own is_key)

/-- The backoff of our own focus is over, where our entry was in it. -/
theorem ownRetry {attempt delay : ℕ} (h : Tended (.ownRetry attempt delay :: tasks) none p)
    (now : ℕ) (takeOver : Except TransportError Unit) :
    Tended tasks none (p.ownRetry attempt now takeOver) := by
  have tried := h.tryFallback now takeOver
  unfold MediaPool.ownRetry
  extract_lets q
  split_ifs with waits
  · obtain ⟨entry, is_entry, -⟩ := (Option.any_eq_true _ _).mp waits
    obtain ⟨key, is_key, found⟩ := Option.bind_eq_some_iff.mp is_entry
    obtain ⟨own, is_own⟩ := tried.recovered is_entry
    have at_ : Tended tasks (some key) q := by
      refine tried.dropDriver rfl fun {other entry} there apart drives => apart ?_
      have ours := tried.ours there (drives_ownRetry drives).2
      exact is_key.symm.trans ours.1
    exact at_.attempted is_key is_own attempt
  · refine tried.dropDriver rfl fun {key entry} found _ drives => waits ?_
    obtain ⟨state, own⟩ := drives_ownRetry drives
    rw [(tried.ours found own).2]
    simp [state]

/-- What is under way anyway may as well be started now. -/
theorem started {task : Spawned} (h : Tended (task :: tasks) but p) (is_upkeep : isUpkeep task) :
    Tended tasks but (p.spawn task) := by
  have there {other : Spawned} (before : other ∈ task :: tasks ++ upkeep p) :
      other ∈ tasks ++ upkeep (p.spawn task) := by
    rw [upkeep_started is_upkeep]
    simp only [List.cons_append, List.mem_cons, List.mem_append, List.not_mem_nil, or_false]
      at before ⊢
    tauto
  refine
    { toOwnEntries := h.toOwnEntries.of_same rfl rfl
      driven := fun found apart => ?_
      idle := fun found notOwn none_ => there (h.idle found notOwn none_)
      opened := h.opened
      held := h.held
      keyed := h.keyed
      timed := fun is_own lost => there (h.timed is_own lost)
      unspent := h.unspent }
  obtain ⟨other, before, is_driver⟩ := h.driven found apart
  exact ⟨other, there before, is_driver⟩

theorem mono {more : List Spawned} (h : Tended tasks but p) (sub : tasks ⊆ more) :
    Tended more but p := by
  have there {task : Spawned} (before : task ∈ tasks ++ upkeep p) : task ∈ more ++ upkeep p :=
    (List.mem_append.mp before).elim (fun before => List.mem_append_left _ (sub before))
      (List.mem_append_right _)
  refine
    { toOwnEntries := h.toOwnEntries
      driven := fun found apart => ?_
      idle := fun found notOwn none_ => there (h.idle found notOwn none_)
      opened := h.opened
      held := h.held
      keyed := h.keyed
      timed := fun is_own lost => there (h.timed is_own lost)
      unspent := h.unspent }
  obtain ⟨task, before, is_driver⟩ := h.driven found apart
  exact ⟨task, there before, is_driver⟩

/-- The end of a budget, that of the loss that lasts or of an earlier one. -/
theorem ownBudget {epoch delay : ℕ} (h : Tended (.ownBudget epoch delay :: tasks) none p) :
    Tended tasks none (p.ownBudget epoch) := by
  unfold MediaPool.ownBudget
  split_ifs with stands
  · extract_lets q attempted
    obtain ⟨own, is_own, same⟩ := (Option.any_eq_true _ _).mp stands
    rw [Bool.and_eq_true, beq_iff_eq] at same
    obtain ⟨rfl, lost⟩ := same
    have isOwn : q.own = some { own with budgetSpent := true } := by
      unfold q
      rw [is_own]
      rfl
    have more : Tended (.ownBudget own.epoch delay ::
        .ownFinalAttempt own.epoch ownFinalAttemptGrace :: tasks) none p :=
      h.mono (List.cons_subset_cons _ (List.subset_cons_self _ _))
    have spent : Tended (.ownBudget own.epoch delay ::
        .ownFinalAttempt own.epoch ownFinalAttemptGrace :: tasks) none q := by
      refine more.of_same rfl rfl (by rw [isOwn, is_own]; rfl) (List.Subset.refl _)
        (fun is_own' _ => ?_) fun is_own' kept => ?_
      · cases isOwn.symm.trans is_own'
        exact .tail _ (.head _)
      · cases isOwn.symm.trans is_own'
        rw [show own.lostSince = none from kept] at lost
        cases lost
    have toQ : Tended (.ownFinalAttempt own.epoch ownFinalAttemptGrace :: tasks) none q := by
      refine spent.dropOther nofun (fun _ _ _ => nofun) fun is_own' _ => ?_
      cases isOwn.symm.trans is_own'
      exact nofun
    refine started (?_ : Tended _ none attempted) rfl
    unfold attempted
    split
    · exact toQ.spawnOwnAttempt _
    · exact toQ
  · refine h.dropOther nofun (fun _ _ _ => nofun) fun {own} is_own lost same => stands ?_
    unfold expiry at same
    split_ifs at same
    cases same
    simp [MediaPool.lossStands, is_own, lost]

/-- The time of the last attempt at our own focus is over. -/
theorem finalAttemptExpired {epoch delay : ℕ}
    (h : Tended (.ownFinalAttempt epoch delay :: tasks) none p) :
    Tended tasks none (if p.finalAttemptOver epoch then p.giveUpOwnBudget else p) := by
  split_ifs with ends
  · obtain ⟨own, is_own, -⟩ := (Option.any_eq_true _ _).mp ends
    have some_ : p.own ≠ none := fun none_ => nomatch is_own.symm.trans none_
    obtain ⟨key, is_key⟩ := Option.isSome_iff_exists.mp
      (h.keyed (Option.isSome_iff_ne_none.mpr some_))
    obtain ⟨message, side⟩ := side_giveUpOwnBudget is_key is_own
    have over_ : p.giveUpOwnBudget.own = none := congrArg OwnSide.own side
    refine (h.weaken.giveUpOwnBudget is_key some_).dropOther nofun (fun _ _ _ => nofun)
      fun is_own' => ?_
    cases is_own'.symm.trans over_
  · refine h.dropOther nofun (fun _ _ _ => nofun) fun {own} is_own lost same => ends ?_
    unfold expiry at same
    split_ifs at same with spent
    cases same
    simp [MediaPool.finalAttemptOver, is_own, lost, spent]

end Tended

end

end MatrixRtc.PoolUpkeep

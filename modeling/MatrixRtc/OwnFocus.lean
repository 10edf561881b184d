import MatrixRtc.PoolFrames

/-!
# Our own focus in a media pool

What a pool knows of our own focus: its entry, its recovery, and what was started and
reported about them. Most of what a pool does is beside our own focus; what is not is said
once for every call, and whatever holds of our own focus over a run follows from that.
-/
namespace MatrixRtc
open MemberEvents MediaTransports Tables MediaPools PoolFrames

namespace OwnFocus

/-- What a pool knows of our own focus: of its entry the state and the generation. -/
structure OwnSide where
  key : Option String
  own : Option OwnRecovery
  entry : Option (ConnState × ℕ)
  closed : Bool
  ownLost : Bool
  budget : ℕ
  tasks : List Spawned
  news : List PoolEvent

def ownSide (p : MediaPool) : OwnSide :=
  { key := p.ownConnectionKey
    own := p.own
    entry := p.ownEntry.map fun entry => (entry.state, entry.generation)
    closed := p.closed
    ownLost := p.ownLost
    budget := p.ownReconnectBudget
    tasks := p.spawned.filter ofOwnSide
    news := p.out.filter isNews }

/-- The entries of our own focus are those under its key, and no backend opens them. -/
structure OwnEntries (p : MediaPool) : Prop where
  own : ∀ {key entry}, p.pool.lookup key = some entry →
    (entry.isOwn = true ↔ p.ownConnectionKey = some key)
  backend : ∀ {key entry}, p.pool.lookup key = some entry → entry.isOwn = true →
    entry.backend = none

/-- Nothing was done about our own focus. -/
structure Aside (p q : MediaPool) : Prop where
  side : ownSide q = ownSide p
  entries : OwnEntries p → OwnEntries q

section
variable {p q r : MediaPool}

namespace OwnEntries

theorem of_same (h : OwnEntries p) (pool : q.pool = p.pool)
    (key : q.ownConnectionKey = p.ownConnectionKey) : OwnEntries q where
  own found := by
    rw [key]
    exact h.own (pool ▸ found)
  backend found := h.backend (pool ▸ found)

theorem new (config : PoolConfig) : OwnEntries (.new config) where
  own found := nomatch found
  backend found := nomatch found

theorem setEntry (h : OwnEntries p) {key : String} {entry : ManagedConnection}
    (own : entry.isOwn = true ↔ p.ownConnectionKey = some key)
    (backend : entry.isOwn = true → entry.backend = none) : OwnEntries (p.setEntry key entry) where
  own found := by
    obtain ⟨rfl, rfl⟩ | ⟨-, before⟩ := of_lookup_insert found
    · exact own
    · exact h.own before
  backend found := by
    obtain ⟨rfl, rfl⟩ | ⟨-, before⟩ := of_lookup_insert found
    · exact backend
    · exact h.backend before

theorem setState (h : OwnEntries p) {key : String} {entry after : ManagedConnection}
    (found : p.pool.lookup key = some entry) (own : after.isOwn = entry.isOwn)
    (backend : after.backend = entry.backend) : OwnEntries (p.setEntry key after) :=
  h.setEntry (own ▸ h.own found) fun is_own => backend.trans (h.backend found (own ▸ is_own))

theorem place (h : OwnEntries p) {key : String} {entry : ManagedConnection}
    (is_key : p.ownConnectionKey = some key) (own : entry.isOwn = true)
    (backend : entry.backend = none) : OwnEntries (p.setEntry key entry) :=
  h.setEntry (iff_of_true own is_key) fun _ => backend

theorem removeEntry (h : OwnEntries p) (key : String) : OwnEntries (p.removeEntry key) where
  own found := h.own (of_lookup_erase found).2
  backend found := h.backend (of_lookup_erase found).2

end OwnEntries

namespace Aside

theorem refl (p : MediaPool) : Aside p p := ⟨rfl, id⟩

theorem trans (first : Aside p q) (second : Aside q r) : Aside p r :=
  ⟨second.side.trans first.side, fun h => second.entries (first.entries h)⟩

theorem key (h : Aside p q) : q.ownConnectionKey = p.ownConnectionKey :=
  congrArg OwnSide.key h.side

theorem own (h : Aside p q) : q.own = p.own := congrArg OwnSide.own h.side

theorem peer (h : Aside p q) {key : String} (peer : p.ownConnectionKey ≠ some key) :
    q.ownConnectionKey ≠ some key := h.key ▸ peer

theorem of_frame (h : frameOf q = frameOf p) : Aside p q where
  side := by
    have same (p : MediaPool) : ownSide p =
        { key := (frameOf p).ownConnectionKey
          own := (frameOf p).own
          entry := ((frameOf p).ownConnectionKey.bind (frameOf p).pool.lookup).map
            fun entry => (entry.state, entry.generation)
          closed := (frameOf p).closed
          ownLost := (frameOf p).ownLost
          budget := (frameOf p).ownReconnectBudget
          tasks := (frameOf p).tasks.filter ofOwnSide
          news := (frameOf p).news } := by
      rw [ownTasks_frame]
      rfl
    rw [same q, same p, h]
  entries before := before.of_same (congrArg Frame.pool h) (congrArg Frame.ownConnectionKey h)

end Aside

end

end OwnFocus

theorem PoolFrames.Beside.aside {p q : MediaPool} (h : Beside p q) : OwnFocus.Aside p q :=
  .of_frame h.frame

namespace OwnFocus

section
variable {p q r : MediaPool}

theorem aside_spawn {task : Spawned} (other : ofOwnSide task = false) : Aside p (p.spawn task) where
  side := by simp [ownSide, MediaPool.spawn, MediaPool.ownEntry, List.filter_append, other]
  entries h := h.of_same rfl rfl

theorem ownEntry_setEntry {key : String} {entry : ManagedConnection}
    (peer : p.ownConnectionKey ≠ some key) : (p.setEntry key entry).ownEntry = p.ownEntry := by
  unfold MediaPool.ownEntry
  cases is_key : p.ownConnectionKey with
  | none => simp [MediaPool.setEntry, is_key]
  | some ownKey =>
      have differs : ownKey ≠ key := fun same => peer (is_key.trans (congrArg some same))
      simp only [MediaPool.setEntry, is_key, Option.bind_some]
      exact AList.lookup_insert_ne differs

theorem ownEntry_removeEntry {key : String} (peer : p.ownConnectionKey ≠ some key) :
    (p.removeEntry key).ownEntry = p.ownEntry := by
  unfold MediaPool.ownEntry
  cases is_key : p.ownConnectionKey with
  | none => simp [MediaPool.removeEntry, is_key]
  | some ownKey =>
      have differs : ownKey ≠ key := fun same => peer (is_key.trans (congrArg some same))
      simp only [MediaPool.removeEntry, is_key, Option.bind_some]
      exact AList.lookup_erase_ne differs

theorem side_of_ownEntry (entry : q.ownEntry = p.ownEntry)
    (rest : { frameOf q with pool := ∅ } = { frameOf p with pool := ∅ }) :
    ownSide q = ownSide p := by
  have same (p : MediaPool) : ownSide p =
      { key := { frameOf p with pool := ∅ }.ownConnectionKey
        own := { frameOf p with pool := ∅ }.own
        entry := p.ownEntry.map fun entry => (entry.state, entry.generation)
        closed := { frameOf p with pool := ∅ }.closed
        ownLost := { frameOf p with pool := ∅ }.ownLost
        budget := { frameOf p with pool := ∅ }.ownReconnectBudget
        tasks := { frameOf p with pool := ∅ }.tasks.filter ofOwnSide
        news := { frameOf p with pool := ∅ }.news } := by
    unfold ownSide
    rw [← ownTasks_frame]
    rfl
  rw [same q, same p, rest, entry]

theorem aside_setPeer {key : String} (entry : ManagedConnection)
    (peer : p.ownConnectionKey ≠ some key) (notOwn : entry.isOwn = false) :
    Aside p (p.setEntry key entry) where
  side := side_of_ownEntry (ownEntry_setEntry peer) rfl
  entries h := h.setEntry (by simp [notOwn, peer]) (by simp [notOwn])

theorem aside_removePeer {key : String} (peer : p.ownConnectionKey ≠ some key) :
    Aside p (p.removeEntry key) where
  side := side_of_ownEntry (ownEntry_removeEntry peer) rfl
  entries h := h.removeEntry key

theorem OwnEntries.peer (h : OwnEntries p) {key : String} {entry : ManagedConnection}
    (found : p.pool.lookup key = some entry) (notOwn : entry.isOwn = false) :
    p.ownConnectionKey ≠ some key := by
  intro is_key
  rw [(h.own found).mpr is_key] at notOwn
  cases notOwn

theorem OwnEntries.peer_of_backend (h : OwnEntries p) {key : String} {entry : ManagedConnection}
    (found : p.pool.lookup key = some entry) (opened : entry.backend.isNone = false) :
    entry.isOwn = false := by
  by_contra is_own
  rw [Bool.not_eq_false] at is_own
  rw [h.backend found is_own] at opened
  cases opened

theorem aside_startConnect (h : OwnEntries p) (key : String) (attempt : ℕ) :
    Aside p (p.startConnect key attempt) := by
  unfold MediaPool.startConnect
  split
  · exact .refl p
  · next entry found =>
      split_ifs with opened
      · exact .refl p
      · have notOwn := h.peer_of_backend found (Bool.not_eq_true _ ▸ opened)
        have set := aside_setPeer { entry with state := .connecting attempt }
          (h.peer found notOwn) notOwn
        exact set.trans (aside_spawn rfl)

theorem aside_openPeer (h : OwnEntries p) (key : String) (backend : MediaTransport)
    (members : List String) : Aside p (p.openPeer key backend members) := by
  unfold MediaPool.openPeer
  split_ifs with is_own
  · exact .refl p
  · have set := aside_setPeer
      { backend := some backend, members := members, isOwn := false, state := .connecting 0
        generation := 0, idleGeneration := 0 } is_own rfl
    exact set.trans (aside_startConnect (set.entries h) key 0)

theorem lookup_regroup (key : String) : p.regroup.pool.lookup key =
    (p.pool.lookup key).map fun entry =>
      { entry with
        members := ((p.desired.lookup key).map Prod.snd).getD []
        idleGeneration := entry.idleGeneration + 1 } :=
  lookup_mapValues p.pool _ key

theorem aside_regroup : Aside p p.regroup where
  side := by
    have entry : p.regroup.ownEntry.map (fun entry => (entry.state, entry.generation)) =
        p.ownEntry.map fun entry => (entry.state, entry.generation) := by
      rw [MediaPool.ownEntry, MediaPool.ownEntry]
      cases is_key : p.ownConnectionKey with
      | none => simp [MediaPool.regroup, is_key]
      | some key =>
          rw [show p.regroup.ownConnectionKey = some key from is_key, Option.bind_some,
            Option.bind_some, lookup_regroup, Option.map_map]
          rfl
    have tasks : p.regroup.spawned.filter ofOwnSide = p.spawned.filter ofOwnSide := by
      rw [MediaPool.regroup, List.filter_append, List.append_right_eq_self, List.filter_eq_nil_iff]
      intro task there
      obtain ⟨e, -, rfl⟩ := List.mem_map.mp there
      exact Bool.false_ne_true
    unfold ownSide
    rw [entry, tasks]
    rfl
  entries h := by
    constructor
    · intro key entry found
      rw [lookup_regroup, Option.map_eq_some_iff] at found
      obtain ⟨before, was, rfl⟩ := found
      have own := h.own was
      exact own
    · intro key entry found
      rw [lookup_regroup, Option.map_eq_some_iff] at found
      obtain ⟨before, was, rfl⟩ := found
      have backend := h.backend was
      exact backend

theorem aside_reconcilePool (h : OwnEntries p) : Aside p p.reconcilePool := by
  unfold MediaPool.reconcilePool
  extract_lets missing
  have regrouped : Aside p p.regroup := aside_regroup
  refine regrouped.trans ?_
  have entries := regrouped.entries h
  generalize p.regroup = q at entries
  clear_value missing
  induction missing generalizing q with
  | nil => exact .refl q
  | cons e rest ih =>
      have opened := aside_openPeer entries e.1 e.2.1 e.2.2
      exact opened.trans (ih _ (opened.entries entries))

theorem aside_retryConnect (h : OwnEntries p) (key : String) (attempt : ℕ) :
    Aside p (p.retryConnect key attempt) := by
  unfold MediaPool.retryConnect
  split
  · exact .refl p
  · next entry found =>
      split_ifs with differs idle
      · exact .refl p
      · rw [Bool.and_eq_true, Bool.not_eq_true'] at idle
        exact (aside_removePeer (h.peer found idle.2)).trans (beside_clearDegraded key).aside
      · exact aside_startConnect h key attempt

theorem aside_closeIfIdle (h : OwnEntries p) (key : String) (idleGeneration : ℕ) :
    Aside p (p.closeIfIdle key idleGeneration) := by
  unfold MediaPool.closeIfIdle
  split_ifs with closes
  · extract_lets dropped closed
    have peer : p.ownConnectionKey ≠ some key := by
      unfold MediaPool.idleCloses at closes
      split at closes
      · cases closes
      · next entry found =>
          rw [Bool.and_eq_true, Bool.not_eq_true'] at closes
          exact h.peer found closes.2
    have gone : Aside p dropped :=
      (calm_dropped key).beside.aside.trans (aside_removePeer peer)
    refine (gone.trans (?_ : Aside dropped closed)).trans (beside_clearDegraded key).aside
    unfold closed
    split
    · exact (calm_closeEntry _).beside.aside
    · exact .refl dropped
  · exact .refl p

theorem aside_installed {key : String} {entry : ManagedConnection} (connection : ℕ)
    (peer : p.ownConnectionKey ≠ some key) (notOwn : entry.isOwn = false) :
    Aside p (p.installed key entry connection) := by
  unfold MediaPool.installed
  extract_lets generation numbered set
  have toNumbered : Aside p numbered := .of_frame rfl
  have toSet : Aside numbered set := aside_setPeer _ peer notOwn
  exact (toNumbered.trans toSet).trans (aside_spawn rfl)

theorem aside_applySnapshot (h : OwnEntries p) (snapshot : List JoinedMembership) :
    Aside p (p.applySnapshot snapshot) := by
  unfold MediaPool.applySnapshot
  have joined : Aside p (snapshot.foldl MediaPool.joinMember (p.forgetDeparted snapshot)) :=
    (calm_joined snapshot).beside.aside
  have named := joined.trans (r :=
    { snapshot.foldl MediaPool.joinMember (p.forgetDeparted snapshot) with
      membersSnapshot := snapshot }) ⟨rfl, fun h => h.of_same rfl rfl⟩
  exact named.trans (aside_reconcilePool (named.entries h))

end

end OwnFocus

end MatrixRtc

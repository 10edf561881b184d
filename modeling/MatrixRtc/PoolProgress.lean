import MatrixRtc.PoolUpkeep
import MatrixRtc.LateMembers
import MatrixRtc.OwnLosses

/-!
# No connection of a media pool is stuck

Over a run of a pool with its tasks every focus without a connection has a task under way
that it waits for, and whatever comes of that task, the focus is not left as it was. A focus
with a connection has its end to wait for, one that nobody is on any more its timer, and a
loss of our own focus the timer that ends it.
-/
namespace MatrixRtc.PoolProgress
open MemberEvents MediaTransports Tables MediaPools PoolFrames OwnFocus PoolConnects PoolTasks
  PoolUpkeep StepRuns

section
variable {p q : MediaPool} {tasks : List Spawned} {key : String} {entry : ManagedConnection}

/-- A message is handled, and its task is over. -/
theorem Tended.handled {f : Flight} {sent : ℕ} {message : Message}
    (h : Tended (f.task :: tasks) none p) (sends : f.message sent = some message)
    (sound : spoils p (.handle message) = false) (now : ℕ)
    (takeOver : Except TransportError Unit) :
    Tended tasks none (p.handle message now takeOver) := by
  have other (no_driver : ¬ isDriver f.task)
      (idle : ∀ key generation delay, f.task ≠ .closeIfIdle key generation delay)
      (timed : ∀ own budget, f.task ≠ expiry own budget) : Tended tasks none p :=
    h.dropOther no_driver (fun _ _ _ => idle _ _ _) fun _ _ => timed _ _
  obtain ⟨key, attempt, result, task, -, rfl⟩ |
    ⟨connection, attempt, fresh, result, task, -, rfl⟩ | ⟨key, generation, task, rfl⟩ |
    ⟨delay, -, timer⟩ := message_cases sends
  · rw [task] at h
    have at_ : Tended tasks (some key) p := by
      refine h.dropDriver rfl fun {other entry} _ apart drives => apart ?_
      rw [(drives_connect.mp drives).1]
    refine at_.connectFinished (fun unmet => ?_) result now takeOver sound
    refine h.dropDriver rfl fun {other entry} found _ drives => ?_
    obtain ⟨rfl, waits, peer⟩ := drives_connect.mp drives
    rw [unmet entry found waits] at peer
    cases peer
  · rw [task] at h
    exact h.ownConnectFinished (result.map fun _ => ()) now
  · rw [task] at h
    have at_ : Tended tasks (some key) p := by
      refine h.dropDriver rfl fun {other entry} _ apart drives => apart ?_
      rw [(drives_forward.mp drives).1]
    refine at_.connectionDown (fun unmet => ?_) _ now
    refine h.dropDriver rfl fun {other entry} found _ drives => ?_
    obtain ⟨rfl, up, numbered⟩ := drives_forward.mp drives
    exact unmet entry found up numbered
  · obtain ⟨key, attempt, task, rfl⟩ | ⟨key, generation, task, rfl⟩ |
      ⟨memberId, kind, generation, task, rfl⟩ | ⟨attempt, task, rfl⟩ | ⟨epoch, task, rfl⟩ |
      ⟨epoch, task, rfl⟩ | ⟨epoch, task, rfl⟩ := timer
    · rw [task] at h
      have at_ : Tended tasks (some key) p := by
        refine h.dropDriver rfl fun {other entry} _ apart drives => apart ?_
        rw [(drives_retryConnect drives).1]
      refine at_.retryConnect fun unmet => ?_
      refine h.dropDriver rfl fun {other entry} found _ drives => ?_
      obtain ⟨rfl, waits, peer⟩ := drives_retryConnect drives
      rw [unmet entry found waits] at peer
      cases peer
    · rw [task] at h
      exact h.closeIfIdle
    · have kept := other (by simp [task, isDriver]) (by simp [task]) fun own budget => by
        rw [task, expiry]
        split_ifs <;> exact fun h => by cases h
      unfold MediaPool.handle
      dsimp only
      split_ifs
      · exact kept.beside (calm_applyConstraintsNow memberId kind).beside
          (upkeep_applyConstraintsNow memberId kind)
      · exact kept
    · rw [task] at h
      exact h.ownRetry now takeOver
    · rw [task] at h
      exact h.ownBudget
    · rw [task] at h
      exact h.finalAttemptExpired
    · have kept := other (by simp [task, isDriver]) (by simp [task]) fun own budget => by
        rw [task, expiry]
        split_ifs <;> exact fun h => by cases h
      unfold MediaPool.handle
      dsimp only
      split_ifs
      · exact kept.tryFallback now takeOver
      · exact kept

theorem Tended.happened (h : Tended tasks none p) (key : String) (generation : ℕ)
    (event : ConnectionEvent) (now : ℕ) (takeOver : Except TransportError Unit) :
    Tended tasks none (p.handle (.connection key generation event) now takeOver) := by
  unfold MediaPool.handle
  dsimp only
  split_ifs with current
  · exact h.handleConnectionEvent current event now takeOver
  · exact h

/-- A handle of our own focus is there, with no loss of it so far. -/
theorem Tended.handed (h : Tended tasks none p) (is_key : p.ownConnectionKey = some key)
    {own : OwnRecovery} (is_own : q.own = some own) (kept : own.lostSince = none)
    (unspent : own.budgetSpent = false) (pool : q.pool = p.pool)
    (ownKey : q.ownConnectionKey = p.ownConnectionKey) (upkeep : upkeep q = upkeep p) :
    Tended tasks (some key) q where
  toOwnEntries := h.toOwnEntries.of_same pool ownKey
  driven found _ := by
    rw [upkeep]
    exact h.driven (pool ▸ found) nofun
  idle found notOwn none_ := by
    rw [upkeep]
    exact h.idle (pool ▸ found) notOwn none_
  opened found := h.opened (pool ▸ found)
  held none_ := nomatch is_own.symm.trans none_
  keyed _ := by
    rw [ownKey, is_key]
    rfl
  timed is_own' lost := by
    cases is_own.symm.trans is_own'
    rw [kept] at lost
    cases lost
  unspent is_own' _ spent := by
    cases is_own.symm.trans is_own'
    rw [unspent] at spent
    cases spent

theorem Tended.adoptOwnConnection (h : Tended tasks none p)
    (is_key : p.ownConnectionKey = some key) (connection : ℕ) :
    Tended tasks none (p.adoptOwnConnection key connection) := by
  unfold MediaPool.adoptOwnConnection
  extract_lets generation q
  have handed : Tended tasks (some key) q :=
    Tended.handed h is_key rfl rfl rfl rfl rfl rfl
  have placed : Tended tasks (some key) (q.setEntry key
      { backend := none, members := p.membersOnKey key, isOwn := true, state := .up connection
        generation := generation, idleGeneration := 0 }) := by
    refine handed.setEntry (handed.toOwnEntries.place is_key rfl rfl) (.inl rfl) nofun nofun
      fun _ => ⟨nofun, fun own is_own _ => ?_⟩
    cases is_own
    rfl
  refine (placed.spawn _).settle fun entry found => ?_
  cases (AList.lookup_insert q.pool).symm.trans found
  refine ⟨.forward key generation, List.mem_append_right _ ?_, drives_forward.mpr ⟨rfl, rfl, rfl⟩⟩
  rw [upkeep_started rfl]
  exact List.mem_append_right _ (.head _)

theorem Tended.connectOwn (h : Tended tasks none p) (is_key : p.ownConnectionKey = some key)
    (connection now : ℕ) : Tended tasks none (p.connectOwn key connection now) := by
  unfold MediaPool.connectOwn
  extract_lets q placed
  have handed : Tended tasks (some key) q :=
    Tended.handed h is_key rfl rfl rfl rfl rfl rfl
  have waits : Tended tasks (some key) placed := by
    refine handed.setEntry (handed.toOwnEntries.place is_key rfl rfl) (.inl rfl) nofun nofun
      fun _ => ⟨nofun, fun own is_own _ => ?_⟩
    cases is_own
    rfl
  exact waits.lose is_key rfl (AList.lookup_insert q.pool) now 0

theorem Tended.close (h : Tended tasks none p) : Tended tasks none p.close := by
  unfold MediaPool.close
  extract_lets q
  have gone : q.ownEntry = none := by
    rw [MediaPool.ownEntry]
    cases q.ownConnectionKey <;> rfl
  have emptied : Tended tasks none q :=
    { own := fun found => by cases found
      backend := fun found => by cases found
      driven := fun found => by cases found
      idle := fun found => by cases found
      opened := fun found => by cases found
      held := fun _ => gone
      keyed := fun some_ => h.keyed (Option.isSome_map.symm.trans some_)
      timed := fun is_own lost => by
        obtain ⟨own, -, rfl⟩ := Option.map_eq_some_iff.mp is_own
        cases lost
      unspent := fun _ _ _ => gone }
  generalize p.pool.entries.filter (fun e => !e.2.isOwn) = entries
  clear_value q
  clear gone
  induction entries generalizing q with
  | nil => exact emptied
  | cons e rest ih => exact ih _ (emptied.closeEntry e.2)

/-- A call of the owner. -/
theorem Tended.called (h : Tended tasks none p) {input : Input} (may : allowed p input.call) :
    Tended tasks none (p.perform input) := by
  obtain ⟨call, now, takeOver⟩ := input
  cases call with
  | handle message => cases may
  | applySnapshot snapshot => exact h.applySnapshot snapshot
  | adoptOwnConnection key connection =>
      refine Tended.adoptOwnConnection h ?_ connection
      simp only [allowed, Bool.and_eq_true, beq_iff_eq] at may
      exact may.2
  | connectOwn key connection =>
      refine Tended.connectOwn h ?_ connection now
      simp only [allowed, Bool.and_eq_true, beq_iff_eq] at may
      exact may.2
  | keyImported identity keyIndex =>
      exact h.beside (calm_keyImported identity keyIndex).beside
        (upkeep_keyImported identity keyIndex)
  | setConstraints memberId kind constraints =>
      exact h.beside (calm_setConstraints memberId kind constraints).beside
        (upkeep_setConstraints memberId kind constraints)
  | setSignallingReachable reachable =>
      have set : Tended tasks none { p with signallingReachable := reachable } :=
        h.rest rfl rfl rfl rfl (List.Subset.refl _)
      change Tended tasks none (p.setSignallingReachable reachable now takeOver)
      unfold MediaPool.setSignallingReachable
      dsimp only
      split_ifs
      · exact set.tryFallback now takeOver
      · exact set
  | close => exact Tended.close h

/-- A focus that has an entry is only regrouped where the snapshot is reconciled. -/
theorem lookup_reconcilePool (found : p.pool.lookup key = some entry) :
    p.reconcilePool.pool.lookup key = some { entry with
      members := ((p.desired.lookup key).map Prod.snd).getD []
      idleGeneration := entry.idleGeneration + 1 } := by
  unfold MediaPool.reconcilePool
  extract_lets missing
  have regrouped := (lookup_regroup (p := p) key).trans (congrArg (Option.map _) found)
  have others (e : Sigma fun _ : String => MediaTransport × List String) (there : e ∈ missing) :
      e.1 ≠ key := by
    rintro rfl
    have none_ := (List.mem_filter.mp there).2
    rw [found] at none_
    cases none_
  clear_value missing
  generalize p.regroup = q at regrouped
  induction missing generalizing q with
  | nil => exact regrouped
  | cons e rest ih =>
      refine ih (fun other there => others other (.tail _ there)) _ ?_
      rw [LateMembers.lookup_openPeer_ne (others e (.head _)).symm]
      exact regrouped

/-- A peer's focus that is up stays up where our media moves. -/
theorem up_tryFallback (peer : p.ownConnectionKey ≠ some key)
    (found : p.pool.lookup key = some entry) (up : entry.state.isUp) (now : ℕ)
    (takeOver : Except TransportError Unit) :
    ∃ after, (p.tryFallback now takeOver).pool.lookup key = some after ∧ after.state.isUp := by
  unfold MediaPool.tryFallback
  split
  · exact ⟨entry, found, up⟩
  · next ownKey target choice =>
      obtain ⟨is_key, differs, -, -⟩ := fallbackChoice_spec choice
      have notOwn : key ≠ ownKey := fun same => peer (is_key.trans (congrArg some same.symm))
      split_ifs
      · unfold MediaPool.fallBack
        split
        · next own transport taken is_own _ foundTarget =>
            split_ifs
            · split
              · exact ⟨entry, found, up⟩
              · unfold MediaPool.movedTo
                extract_lets up_ gone moved renamed told opened
                have stays : gone.pool.lookup target = some taken :=
                  (AList.lookup_erase_ne differs).trans foundTarget
                have entered : moved = gone.setEntry target { taken with
                    isOwn := true, backend := none, state := .up own.connection } := by
                  unfold moved
                  rw [stays]
                have toldPool : told.pool = moved.pool := by
                  obtain ⟨after, choice, ended⟩ :=
                    endOwnLoss_eq { moved with ownConnectionKey := some target }
                  unfold told renamed
                  rw [ended]
                  rfl
                have there : ∃ after, told.pool.lookup key = some after ∧ after.state.isUp := by
                  rw [toldPool, entered]
                  by_cases same : key = target
                  · subst same
                    exact ⟨_, AList.lookup_insert _, rfl⟩
                  · exact ⟨entry, (AList.lookup_insert_ne same).trans
                      ((AList.lookup_erase_ne notOwn).trans found), up⟩
                obtain ⟨after, there, up⟩ := there
                have result : (if (opened.pool.lookup ownKey).isNone then
                    opened.clearDegraded ownKey else opened).pool = opened.pool := by
                  split_ifs
                  · exact (beside_clearDegraded ownKey).pool
                  · rfl
                rw [result]
                exact ⟨_, lookup_reconcilePool there, up⟩
            · exact ⟨entry, found, up⟩
        · exact ⟨entry, found, up⟩
      · exact ⟨entry, found, up⟩

theorem side_of_lookup (is_key : p.ownConnectionKey = some key)
    (found : p.pool.lookup key = some entry) :
    (ownSide p).entry = some (entry.state, entry.generation) := by
  rw [side_entry, ownEntry_of_key is_key, found]
  rfl

theorem waits_of_spawnOwnAttempt {attempt : ℕ} {own : OwnRecovery}
    (is_key : p.ownConnectionKey = some key) (is_own : p.own = some own)
    (found : (p.spawnOwnAttempt attempt).pool.lookup key = some entry) :
    entry.state = .connecting attempt := by
  have side := side_spawnOwnAttempt attempt is_key is_own
  have there := side_of_lookup ((congrArg OwnSide.key side).trans is_key) found
  rw [side] at there
  obtain ⟨before, -, same⟩ := Option.map_eq_some_iff.mp there
  exact (congrArg Prod.fst same).symm

theorem ne_of_state {after : ManagedConnection} (placed : q.pool.lookup key = some after)
    (state : after.state ≠ entry.state) : q.pool.lookup key ≠ some entry := by
  rw [placed]
  exact fun same => state (congrArg ManagedConnection.state (Option.some.inj same))

theorem ne_of_none (absent : q.pool.lookup key = none) : q.pool.lookup key ≠ some entry := by
  rw [absent]
  exact nofun

/-- The entry that waited for a connect is up, waits for the next, or is gone. -/
theorem moved_connectFinished (h : Tended tasks none p) {attempt : ℕ}
    (found : p.pool.lookup key = some entry) (waits : entry.state = .connecting attempt)
    (notOwn : entry.isOwn = false) (result : Except TransportError ℕ) (now : ℕ)
    (takeOver : Except TransportError Unit) :
    (p.connectFinished key attempt result now takeOver).pool.lookup key ≠ some entry := by
  rw [MediaPool.connectFinished, found]
  dsimp only
  rw [if_neg (not_not.mpr waits)]
  split_ifs
  · apply ne_of_none
    rw [(calm_closeStray result).beside.pool, (beside_clearDegraded key).pool]
    exact AList.lookup_erase key p.pool
  · cases result with
    | ok connection =>
        have apart : ((p.installed key entry connection).clearDegraded key).ownConnectionKey ≠
            some key := by
          rw [(beside_clearDegraded key).ownKey]
          exact h.toOwnEntries.peer found notOwn
        have placed : ((p.installed key entry connection).clearDegraded key).pool.lookup key =
            some { entry with
              generation := p.connectionGeneration + 1, state := .up connection } := by
          rw [(beside_clearDegraded key).pool]
          exact AList.lookup_insert p.pool
        dsimp only
        rw [MediaPool.peerUp, if_neg apart]
        obtain ⟨after, there, up⟩ := up_tryFallback apart placed rfl now takeOver
        refine ne_of_state there fun same => ?_
        rw [same, waits] at up
        cases up
    | error error =>
        refine ne_of_state (AList.lookup_insert (p.markDegraded key).pool) ?_
        rw [waits]
        exact nofun

theorem moved_retryConnect (h : Tended tasks none p) {attempt : ℕ}
    (found : p.pool.lookup key = some entry) (waits : entry.state = .backoff attempt)
    (notOwn : entry.isOwn = false) :
    (p.retryConnect key attempt).pool.lookup key ≠ some entry := by
  have backed := h.opened found notOwn
  rw [MediaPool.retryConnect, found]
  dsimp only
  rw [if_neg (not_not.mpr waits)]
  split_ifs
  · apply ne_of_none
    rw [(beside_clearDegraded key).pool]
    exact AList.lookup_erase key p.pool
  · rw [MediaPool.startConnect, found]
    dsimp only
    split_ifs with unopened
    · rw [Option.isNone_iff_eq_none.mp unopened] at backed
      cases backed
    · refine ne_of_state (AList.lookup_insert p.pool) ?_
      rw [waits]
      exact fun h => by cases h

theorem gone_giveUpOwn (is_key : p.ownConnectionKey = some key) (reason : OwnConnectionLoss)
    (message : String) : (p.giveUpOwn reason message).pool.lookup key = none := by
  have side := side_giveUpOwn reason message is_key
  have still : (p.giveUpOwn reason message).ownConnectionKey = some key :=
    (congrArg OwnSide.key side).trans is_key
  have none_ := congrArg OwnSide.entry side
  rw [side_entry, ownEntry_of_key still] at none_
  exact Option.map_eq_none_iff.mp none_

theorem gone_giveUpOwnBudget (is_key : p.ownConnectionKey = some key) (some_ : p.own ≠ none) :
    p.giveUpOwnBudget.pool.lookup key = none := by
  unfold MediaPool.giveUpOwnBudget
  split
  · next none_ => exact absurd none_ some_
  · exact gone_giveUpOwn is_key _ _

/-- The entry whose connection has ended waits for another, or is gone. -/
theorem moved_connectionDown (h : Tended tasks none p) (found : p.pool.lookup key = some entry)
    (up : entry.state.isUp) (message : String) (now : ℕ) :
    (p.connectionDown key entry.generation message now).pool.lookup key ≠ some entry := by
  have beside := ((calm_dropped (p := p) key).beside.trans (calm_retireTracks key).beside).trans
    (beside_markDegraded key)
  have down {state : ConnState} (is_down : state.isUp = false) : state ≠ entry.state := by
    rintro rfl
    rw [up] at is_down
    cases is_down
  rw [MediaPool.connectionDown, found]
  dsimp only
  rw [if_neg (by simp [up])]
  split_ifs with unrecovered is_own empty
  · rw [Bool.and_eq_true] at unrecovered
    have is_key := (h.own found).mp unrecovered.1
    exact ne_of_none (gone_giveUpOwn (by rw [← is_key]; rfl) _ _)
  · have is_key := (h.own found).mp is_own
    rw [Bool.and_eq_true, not_and, Option.isNone_iff_eq_none] at unrecovered
    obtain ⟨own, recovers⟩ := Option.ne_none_iff_exists'.mp (unrecovered is_own)
    have begun := side_startOwnLoss now (beside.ownKey.trans is_key)
      ((congrArg Frame.own beside.frame).trans recovers)
    intro still
    have waits := waits_of_spawnOwnAttempt
      ((congrArg OwnSide.key begun).trans (beside.ownKey.trans is_key))
      (congrArg OwnSide.own begun) still
    exact down rfl waits.symm
  · apply ne_of_none
    rw [(beside_clearDegraded key).pool]
    exact AList.lookup_erase key _
  · exact ne_of_state (AList.lookup_insert _) (down rfl)

/-- Our own entry, which waited for an attempt, is up, waits for the next, or is gone. -/
theorem moved_ownConnectFinished (h : Tended tasks none p) {attempt : ℕ}
    (found : p.pool.lookup key = some entry) (waits : entry.state = .connecting attempt)
    (own : entry.isOwn = true) (result : Except TransportError Unit) (now : ℕ) :
    (p.ownConnectFinished attempt result now).pool.lookup key ≠ some entry := by
  obtain ⟨is_key, is_entry⟩ := h.ours found own
  have some_ : p.own ≠ none := Option.ne_none_iff_exists'.mpr (h.recovered is_entry)
  have backs {q : MediaPool} (is_key : q.ownConnectionKey = some key) (next : ℕ) :
      (q.ownBackoff next now).pool.lookup key ≠ some entry := by
    intro still
    obtain ⟨delay, side⟩ := side_ownBackoff next now is_key
    have there := side_of_lookup ((congrArg OwnSide.key side).trans is_key) still
    rw [side] at there
    obtain ⟨before, -, same⟩ := Option.map_eq_some_iff.mp there
    rw [waits] at same
    cases congrArg Prod.fst same
  unfold MediaPool.ownConnectFinished
  split
  · next key' own' is_key' is_own =>
      cases is_key.symm.trans is_key'
      rw [found, Option.filter_some, if_pos (by simp [waits])]
      dsimp only
      cases result with
      | ok =>
          dsimp only
          rw [(calm_reapplyConnectionConstraints key).beside.pool, (beside_clearDegraded key).pool]
          obtain ⟨after, choice, ended⟩ := endOwnLoss_eq
            (MediaPool.installed { p with own := some { own' with everUp := true } } key entry
              own'.connection)
          rw [ended]
          refine ne_of_state (AList.lookup_insert p.pool) ?_
          rw [waits]
          exact nofun
      | error error =>
          have refetched := backs (q := { p with own := some { own' with
            tokenRefetched := true, refetchNext := true } }) is_key (attempt + 1)
          dsimp only
          split_ifs
          · cases error with
            | tokenRejected message | refused message =>
                exact ne_of_none (gone_giveUpOwn is_key _ _)
            | unsupported | connect | closed => exact ne_of_none (gone_giveUpOwnBudget is_key some_)
          all_goals
            cases error with
            | tokenRejected message =>
                first
                | exact ne_of_none (gone_giveUpOwn is_key _ _)
                | exact refetched
            | refused message => exact ne_of_none (gone_giveUpOwn is_key _ _)
            | unsupported | connect | closed => exact backs is_key _
  · next none_ =>
      obtain ⟨own', is_own⟩ := Option.ne_none_iff_exists'.mp some_
      exact absurd is_own (none_ key own' is_key)

/-- Our own entry, which was in backoff, waits for an attempt, or is gone. -/
theorem moved_ownRetry (h : Tended tasks none p) {attempt : ℕ}
    (waits : entry.state = .backoff attempt) (own : entry.isOwn = true) (now : ℕ)
    (takeOver : Except TransportError Unit) :
    (p.ownRetry attempt now takeOver).pool.lookup key ≠ some entry := by
  have tried := h.tryFallback now takeOver
  unfold MediaPool.ownRetry
  extract_lets q
  split_ifs with backs
  · obtain ⟨before, is_entry, -⟩ := (Option.any_eq_true _ _).mp backs
    obtain ⟨key', is_key, -⟩ := Option.bind_eq_some_iff.mp is_entry
    obtain ⟨recovery, is_own⟩ := tried.recovered is_entry
    intro still
    have entries := entries_spawnOwnAttempt tried.toOwnEntries attempt
    have is_key' := congrArg OwnSide.key (side_spawnOwnAttempt attempt is_key is_own)
    cases (is_key'.trans is_key).symm.trans ((entries.own still).mp own)
    have state := waits_of_spawnOwnAttempt is_key is_own still
    cases waits.symm.trans state
  · intro still
    refine backs ?_
    rw [(tried.ours still own).2]
    simp [waits]

/-- Whatever comes of the task that an entry waited for, the entry is another, or is gone. -/
theorem moved_handle (h : Tended tasks none p) {f : Flight} {sent : ℕ} {message : Message}
    (found : p.pool.lookup key = some entry) (is_driver : drives key entry f.task)
    (sends : f.message sent = some message) (now : ℕ) (takeOver : Except TransportError Unit) :
    (p.handle message now takeOver).pool.lookup key ≠ some entry := by
  have driver := isDriver_of_drives is_driver
  obtain ⟨key, attempt, result, task, -, rfl⟩ |
    ⟨connection, attempt, fresh, result, task, -, rfl⟩ | ⟨key, generation, task, rfl⟩ |
    ⟨delay, -, timer⟩ := message_cases sends
  · rw [task] at is_driver
    obtain ⟨rfl, waits, notOwn⟩ := drives_connect.mp is_driver
    exact moved_connectFinished h found waits notOwn result now takeOver
  · rw [task] at is_driver
    obtain ⟨waits, own⟩ := drives_ownAttempt.mp is_driver
    exact moved_ownConnectFinished h found waits own _ now
  · rw [task] at is_driver
    obtain ⟨rfl, up, rfl⟩ := drives_forward.mp is_driver
    exact moved_connectionDown h found up _ now
  · obtain ⟨key, attempt, task, rfl⟩ | ⟨key, generation, task, rfl⟩ |
      ⟨memberId, kind, generation, task, rfl⟩ | ⟨attempt, task, rfl⟩ | ⟨epoch, task, rfl⟩ |
      ⟨epoch, task, rfl⟩ | ⟨epoch, task, rfl⟩ := timer
    · rw [task] at is_driver
      obtain ⟨rfl, waits, notOwn⟩ := drives_retryConnect is_driver
      exact moved_retryConnect h found waits notOwn
    · simp [task, isDriver] at driver
    · simp [task, isDriver] at driver
    · rw [task] at is_driver
      obtain ⟨waits, own⟩ := drives_ownRetry is_driver
      exact moved_ownRetry h waits own now takeOver
    · simp [task, isDriver] at driver
    · simp [task, isDriver] at driver
    · simp [task, isDriver] at driver

end

/-- No failure of a connect to a peer's focus counts for our own. -/
def Unspoilt (s : System) (a : Action) : Prop :=
  ∀ call ∈ OwnLosses.callOf s a, spoils s.pool call = false

instance (s : System) (a : Action) : Decidable (Unspoilt s a) :=
  inferInstanceAs (Decidable (∀ _ ∈ _, _))

/-- Every focus has the task under way that it waits for, which does not leave it as it is;
a focus that nobody is on any more has its timer, and so has a loss of our own. -/
structure Alive (s : System) : Prop where
  driven : ∀ key entry, s.pool.pool.lookup key = some entry →
    ∃ f ∈ s.flights, drives key entry f.task
  moves : ∀ i f key entry takeOver t, s.flights[i]? = some f →
    s.pool.pool.lookup key = some entry → drives key entry f.task →
      step s (.deliver i takeOver) = some t → t.pool.pool.lookup key ≠ some entry
  idle : ∀ key entry, s.pool.pool.lookup key = some entry → entry.isOwn = false →
    entry.members.isEmpty → ∃ f ∈ s.flights,
      f.task = .closeIfIdle key entry.idleGeneration idleGrace
  timed : ∀ own, s.pool.own = some own → own.lostSince.isSome → ∃ f ∈ s.flights,
    f.task = expiry own s.pool.ownReconnectBudget

/-- The pool of a run, with nothing of a call left to start. -/
structure Inv (s : System) : Prop where
  tended : Tended (s.flights.map Flight.task) none s.pool
  spawned : s.pool.spawned = []

theorem inv_start (config : PoolConfig) (now : ℕ) : Inv (PoolTasks.start config now) where
  tended :=
    { toOwnEntries := .new config
      driven := nofun
      idle := nofun
      opened := nofun
      held := fun _ => by
        cases is_key : config.ownConnectionKey <;>
          simp [MediaPool.ownEntry, PoolTasks.start, MediaPool.new, is_key]
      keyed := nofun
      timed := nofun
      unspent := nofun }
  spawned := rfl

/-- The tasks that a call has started are under way after it. -/
theorem inv_called {s t : System} {call : Call} {takeOver : Except TransportError Unit}
    {rest : List Flight} {lapsed : List (String × ℕ)} (h : Called s call takeOver rest lapsed t)
    (left : Tended (rest.map Flight.task) none (s.left call takeOver)) : Inv t := by
  have launched : t.flights.map Flight.task =
      rest.map Flight.task ++ (s.left call takeOver).spawned := by
    rw [h.flights, List.map_append]
    refine congrArg (rest.map Flight.task ++ ·) ?_
    refine List.ext_getElem (by simp [System.launch]) fun i _ _ => ?_
    simp [System.launch]
  have there {task : Spawned} (awaited : task ∈ rest.map Flight.task ++
      upkeep (s.left call takeOver)) : task ∈ t.flights.map Flight.task ++ upkeep t.pool := by
    rw [launched]
    refine List.mem_append_left _ ((List.mem_append.mp awaited).elim (List.mem_append_left _) ?_)
    exact fun started => List.mem_append_right _ (List.mem_filter.mp started).1
  refine ⟨?_, ?_⟩
  · rw [h.pool] at there ⊢
    exact
      { toOwnEntries := left.toOwnEntries.of_same rfl rfl
        driven := fun found apart =>
          (left.driven found apart).imp fun _ awaited => ⟨there awaited.1, awaited.2⟩
        idle := fun found notOwn none_ => there (left.idle found notOwn none_)
        opened := left.opened
        held := left.held
        keyed := left.keyed
        timed := fun is_own lost => there (left.timed is_own lost)
        unspent := left.unspent }
  · rw [h.pool]

theorem tasks_cutShort (s : System) (message : Message) (rest : List Flight) :
    (s.cutShort message rest).map Flight.task = rest.map Flight.task := by
  unfold System.cutShort
  split
  · split
    · rw [List.map_map]
      refine List.map_congr_left fun f _ => ?_
      dsimp only [Function.comp_apply]
      split_ifs <;> rfl
    · rfl
  · rfl

theorem inv_step {s t : System} {a : Action} (inv : Inv s) (sound : Unspoilt s a)
    (next : step s a = some t) : Inv t := by
  obtain ⟨ms, rfl, rfl⟩ | ⟨i, result, f, rfl, there, -, rfl⟩ |
    ⟨call, takeOver, rfl, may, called⟩ | ⟨i, takeOver, f, message, rfl, delivered⟩ |
    ⟨i, event, takeOver, f, connection, rfl, happened⟩ := step_cases next
  · exact ⟨inv.tended, inv.spawned⟩
  · refine ⟨?_, inv.spawned⟩
    have same : (s.flights.set i { f with answer := some result }).map Flight.task =
        s.flights.map Flight.task := by
      rw [List.map_set]
      refine List.ext_getElem? fun j => ?_
      by_cases same : i = j
      · subst same
        have bound : i < (s.flights.map Flight.task).length := by
          rw [List.length_map]
          exact (List.getElem?_eq_some_iff.mp there).1
        rw [List.getElem?_set_self bound, List.getElem?_map, there]
        rfl
      · rw [List.getElem?_set_ne same]
    rw [show ({ s with flights := s.flights.set i { f with answer := some result } } :
      System).flights.map Flight.task = _ from same]
    exact inv.tended
  · exact inv_called called (Tended.called inv.tended may)
  · have calls : OwnLosses.callOf s (.deliver i takeOver) = some (.handle message) := by
      simp [OwnLosses.callOf, delivered.there, delivered.sends]
    refine inv_called delivered.called ?_
    rw [tasks_cutShort]
    refine Tended.handled (inv.tended.mono fun task there => ?_) delivered.sends
      (sound _ calls) s.now takeOver
    obtain ⟨g, flies, rfl⟩ := List.mem_map.mp there
    obtain ⟨j, is_g⟩ := List.mem_iff_getElem?.mp flies
    by_cases same : j = i
    · subst same
      cases delivered.there.symm.trans is_g
      exact .head _
    · exact .tail _ (List.mem_map_of_mem (List.mem_eraseIdx_iff_getElem?.mpr ⟨j, same, is_g⟩))
  · exact inv_called happened.called (Tended.happened inv.tended _ _ event s.now takeOver)

theorem Inv.alive {s : System} (inv : Inv s) : Alive s := by
  have under {task : Spawned} (there : task ∈ s.flights.map Flight.task ++ upkeep s.pool) :
      ∃ f ∈ s.flights, f.task = task := by
    rw [upkeep, inv.spawned, List.filter_nil, List.append_nil] at there
    exact List.mem_map.mp there
  refine ⟨fun key entry found => ?_, fun i f key entry takeOver t there found is_driver next => ?_,
    fun key entry found notOwn none_ => under (inv.tended.idle found notOwn none_),
    fun own is_own lost => under (inv.tended.timed is_own lost)⟩
  · obtain ⟨task, there, is_driver⟩ := inv.tended.driven found fun h => by cases h
    obtain ⟨f, flies, rfl⟩ := under there
    exact ⟨f, flies, is_driver⟩
  · obtain ⟨ms, other, -⟩ | ⟨_, _, _, other, -⟩ | ⟨call, _, other, -⟩ |
      ⟨i', takeOver', f', message, same, delivered⟩ | ⟨_, _, _, _, _, other, -⟩ :=
      step_cases next <;> first | cases other | skip
    cases same
    cases there.symm.trans delivered.there
    rw [delivered.called.pool]
    exact moved_handle inv.tended found is_driver delivered.sends s.now takeOver

/-- Over every run in which no failure of a connect to a peer's focus counts for our own, no
connection of a pool is stuck. -/
theorem pool_never_stuck (config : PoolConfig) (now : ℕ) (as : List Action)
    (unspoilt : Admissible step Unspoilt (PoolTasks.start config now) as) :
    Always step Alive (PoolTasks.start config now) as :=
  always_of_admissible (fun _ _ _ => inv_step) (fun _ => Inv.alive) (inv_start config now) unspoilt

/-- A connect to Bob's focus fails and is made again, and our own focus is lost. -/
theorem pool_never_stuck_retried :
    Always step Alive (PoolTasks.start OwnLosses.movableConfig 0)
      [.owner (.applySnapshot [PoolMembers.bobOnB]) (.ok ()),
        .owner (.adoptOwnConnection "https://a.x" 10) (.ok ()),
        .answer 0 (.error (.connect "timeout")), .deliver 0 (.ok ()), .tick 2000,
        .deliver 1 (.ok ()), .event 0 (.closed "lost") (.ok ())] :=
  pool_never_stuck OwnLosses.movableConfig 0 _ (by decide +kernel)

end MatrixRtc.PoolProgress

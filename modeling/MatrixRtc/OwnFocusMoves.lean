import MatrixRtc.OwnFocus

/-!
# What each call does about our own focus

Our own focus is handed over, lost, connected again, given up or moved. Every call does one
of these or nothing, and where the pool acts on a message about our own focus it is the one
its entry waits for.
-/
namespace MatrixRtc.OwnFocus
open MemberEvents MediaTransports Tables MediaPools PoolFrames

/-- The recovery once our media is lost. -/
def begun (own : OwnRecovery) (now : ℕ) : OwnRecovery :=
  if own.lostSince.isSome then own
  else { own with lostSince := some now, epoch := own.epoch + 1 }

/-- The budget of a loss that begins. -/
def lossTasks (own : OwnRecovery) (budget : ℕ) : List Spawned :=
  if own.lostSince.isSome then [] else [.ownBudget (own.epoch + 1) budget]

/-- The recovery once our media is carried again. -/
def ended (own : OwnRecovery) : OwnRecovery :=
  if own.lostSince.isSome then
    { own with
      lostSince := none, epoch := own.epoch + 1, tokenRefetched := false
      refetchNext := false, budgetSpent := false }
  else own

/-- The recovery once an attempt is out: what was to be asked for was. -/
def attempted (own : OwnRecovery) : OwnRecovery := { own with refetchNext := false }

namespace OwnSide

def attempt (v : OwnSide) (own : OwnRecovery) (attempt : ℕ) : OwnSide :=
  { v with
    own := some (attempted own)
    entry := v.entry.map fun entry => (.connecting attempt, entry.2)
    tasks := v.tasks ++ [.ownAttempt own.connection attempt own.refetchNext] }

def lossBegins (v : OwnSide) (own : OwnRecovery) (now : ℕ) : OwnSide :=
  { v with own := some (begun own now), tasks := v.tasks ++ lossTasks own v.budget }

def backOff (v : OwnSide) (attempt delay : ℕ) : OwnSide :=
  { v with
    entry := v.entry.map fun entry => (.backoff attempt, entry.2)
    tasks := v.tasks ++ [.ownRetry attempt delay] }

def givenUp (v : OwnSide) (reason : OwnConnectionLoss) (message : String) : OwnSide :=
  { v with
    own := none
    entry := none
    ownLost := true
    news := v.news ++ [.ownConnectionLost reason message] }

end OwnSide

/-- The reason at the end of the budget. -/
def spentReason (own : OwnRecovery) : OwnConnectionLoss :=
  if own.everUp then .budget else .neverConnected

/-- The recovery of a handle that is handed over, connected or not. -/
def handed (connection : ℕ) (everUp : Bool) : OwnRecovery :=
  { connection := connection
    lostSince := none
    epoch := 0
    tokenRefetched := false
    refetchNext := false
    everUp := everUp
    budgetSpent := false }

/-- The connection has ended. -/
def ends (call : Call) (key : String) (generation : ℕ) : Prop :=
  call = .handle (.connectionEnded key generation) ∨
    ∃ message, call = .handle (.connection key generation (.closed message))

/-- A call that may find a peer's connection to move to. -/
def mayMove : Call → Bool
  | .setSignallingReachable _ | .handle (.ownRetry _) | .handle (.ownFallback _)
  | .handle (.connection _ _ .reconnected) | .handle (.connectFinished _ _ _) => true
  | _ => false

/-- The link of our own focus is back. -/
def links (v : OwnSide) : Call → Bool
  | .handle (.connection key generation .reconnected) =>
      v.key == some key && v.entry.any (·.2 == generation)
  | _ => false

/-- What a call does about our own focus. -/
inductive OwnMove (now : ℕ) (v : OwnSide) : Call → OwnSide → Prop
  | still {call : Call} (unlinked : links v call = false) : OwnMove now v call v
  | began {key : String} (connection : ℕ) (is_key : v.key = some key) (fresh : v.own = none)
      (unlost : v.ownLost = false) (opened : v.closed = false) :
      OwnMove now v (.connectOwn key connection)
        ((({ v with
            own := some (handed connection false)
            entry := some (.connecting 0, 0) } : OwnSide).lossBegins
          (handed connection false) now).attempt (begun (handed connection false) now) 0)
  | adopted {key : String} {connection generation : ℕ} (is_key : v.key = some key)
      (fresh : v.own = none) (unlost : v.ownLost = false) (opened : v.closed = false) :
      OwnMove now v (.adoptOwnConnection key connection)
        { v with
          own := some (handed connection true)
          entry := some (.up connection, generation) }
  | linkLost {key : String} {state : ConnState} {generation : ℕ} {own : OwnRecovery}
      (is_key : v.key = some key) (entry : v.entry = some (state, generation))
      (is_own : v.own = some own) :
      OwnMove now v (.handle (.connection key generation .reconnecting)) (v.lossBegins own now)
  | linkBack {key : String} {state : ConnState} {generation : ℕ} {own : OwnRecovery}
      (is_key : v.key = some key) (entry : v.entry = some (state, generation))
      (is_own : v.own = some own) :
      OwnMove now v (.handle (.connection key generation .reconnected))
        { v with own := some (ended own) }
  | down {call : Call} {key : String} {connection generation : ℕ} {own : OwnRecovery}
      (by_end : ends call key generation) (is_key : v.key = some key)
      (entry : v.entry = some (.up connection, generation)) (is_own : v.own = some own) :
      OwnMove now v call ((v.lossBegins own now).attempt (begun own now) 0)
  | connected {attempt generation installed : ℕ} {own : OwnRecovery}
      (entry : v.entry = some (.connecting attempt, generation)) (is_own : v.own = some own) :
      OwnMove now v (.handle (.ownConnectFinished attempt (.ok ())))
        { v with
          own := some (ended { own with everUp := true })
          entry := some (.up own.connection, installed) }
  | failed {attempt generation : ℕ} {own : OwnRecovery} (error : TransportError) (delay : ℕ)
      (entry : v.entry = some (.connecting attempt, generation)) (is_own : v.own = some own) :
      OwnMove now v (.handle (.ownConnectFinished attempt (.error error)))
        (v.backOff (attempt + 1) delay)
  | refetched {attempt generation : ℕ} {own : OwnRecovery} (message : String) (delay : ℕ)
      (entry : v.entry = some (.connecting attempt, generation)) (is_own : v.own = some own) :
      OwnMove now v (.handle (.ownConnectFinished attempt (.error (.tokenRejected message))))
        (({ v with own := some { own with tokenRefetched := true, refetchNext := true } } :
          OwnSide).backOff (attempt + 1) delay)
  | refused {attempt generation : ℕ} {own : OwnRecovery} {error : TransportError}
      {message : String} (entry : v.entry = some (.connecting attempt, generation))
      (is_own : v.own = some own)
      (why : error = .refused message ∨
        error = .tokenRejected message ∧ (own.budgetSpent ∨ own.tokenRefetched)) :
      OwnMove now v (.handle (.ownConnectFinished attempt (.error error)))
        (v.givenUp .refused message)
  | spent {attempt generation : ℕ} {own : OwnRecovery} (error : TransportError)
      (message : String) (entry : v.entry = some (.connecting attempt, generation))
      (is_own : v.own = some own) (over_ : own.budgetSpent) :
      OwnMove now v (.handle (.ownConnectFinished attempt (.error error)))
        (v.givenUp (spentReason own) message)
  | expired {own : OwnRecovery} (message : String) (is_own : v.own = some own)
      (over_ : own.budgetSpent) (lost : own.lostSince.isSome) :
      OwnMove now v (.handle (.ownFinalAttemptExpired own.epoch))
        (v.givenUp (spentReason own) message)
  | retried {attempt generation : ℕ} {own : OwnRecovery}
      (entry : v.entry = some (.backoff attempt, generation)) (is_own : v.own = some own) :
      OwnMove now v (.handle (.ownRetry attempt)) (v.attempt own attempt)
  | budgetOver {own : OwnRecovery} (is_own : v.own = some own) (lost : own.lostSince.isSome)
      (waits : ∀ attempt generation, v.entry ≠ some (.backoff attempt, generation)) :
      OwnMove now v (.handle (.ownBudget own.epoch))
        { v with
          own := some { own with budgetSpent := true }
          tasks := v.tasks ++ [.ownFinalAttempt own.epoch ownFinalAttemptGrace] }
  | lastAttempt {attempt generation : ℕ} {own : OwnRecovery} (is_own : v.own = some own)
      (lost : own.lostSince.isSome) (entry : v.entry = some (.backoff attempt, generation)) :
      OwnMove now v (.handle (.ownBudget own.epoch))
        { v.attempt { own with budgetSpent := true } attempt with
          tasks := (v.attempt { own with budgetSpent := true } attempt).tasks ++
            [.ownFinalAttempt own.epoch ownFinalAttemptGrace] }
  | moved {call : Call} {target : String} {own : OwnRecovery} (generation : ℕ)
      (transport : RtcTransport) (may : mayMove call) (is_own : v.own = some own)
      (lost : own.lostSince.isSome) (opened : v.closed = false) :
      OwnMove now v call
        { v with
          key := some target
          own := some (ended { own with everUp := true })
          entry := some (.up own.connection, generation)
          news := v.news ++ [.ownFocusMoved target transport] }
  | closed :
      OwnMove now v .close
        { v with
          own := v.own.map fun own => { own with epoch := own.epoch + 1, lostSince := none }
          entry := none
          closed := true }

section
variable {p q r : MediaPool}

theorem side_setOwn {key : String} (entry : ManagedConnection)
    (is_key : p.ownConnectionKey = some key) :
    ownSide (p.setEntry key entry) =
      { ownSide p with entry := some (entry.state, entry.generation) } := by
  have found : (p.setEntry key entry).ownEntry = some entry := by
    rw [MediaPool.ownEntry, show (p.setEntry key entry).ownConnectionKey = some key from is_key]
    exact AList.lookup_insert p.pool
  unfold ownSide
  rw [found]
  rfl

theorem side_removeOwn {key : String} (is_key : p.ownConnectionKey = some key) :
    ownSide (p.removeEntry key) = { ownSide p with entry := none } := by
  have gone : (p.removeEntry key).ownEntry = none := by
    rw [MediaPool.ownEntry, show (p.removeEntry key).ownConnectionKey = some key from is_key]
    exact AList.lookup_erase key p.pool
  unfold ownSide
  rw [gone]
  rfl

theorem side_spawn (task : Spawned) (own : ofOwnSide task) :
    ownSide (p.spawn task) = { ownSide p with tasks := (ownSide p).tasks ++ [task] } := by
  simp [ownSide, MediaPool.spawn, MediaPool.ownEntry, List.filter_append, own]

theorem side_emit (event : PoolEvent) (own : isNews event) :
    ownSide (p.emit event) = { ownSide p with news := (ownSide p).news ++ [event] } := by
  simp [ownSide, MediaPool.emit, MediaPool.ownEntry, List.filter_append, own]

theorem entries_spawn (h : OwnEntries p) (task : Spawned) : OwnEntries (p.spawn task) :=
  h.of_same rfl rfl

theorem side_startOwnLoss {key : String} {own : OwnRecovery} (now : ℕ)
    (is_key : p.ownConnectionKey = some key) (is_own : p.own = some own) :
    ownSide (p.startOwnLoss now) = (ownSide p).lossBegins own now := by
  unfold MediaPool.startOwnLoss
  split
  · next key' own' is_key' is_own' =>
      cases is_key.symm.trans is_key'
      cases is_own.symm.trans is_own'
      split_ifs with lost
      · rw [OwnSide.lossBegins, begun, lossTasks, if_pos lost, if_pos lost, List.append_nil,
          ← is_own]
        rfl
      · extract_lets epoch timed budgeted armed
        have toArmed : Aside budgeted armed := by
          unfold armed
          split_ifs
          · exact aside_spawn rfl
          · exact .refl budgeted
        rw [(toArmed.trans (beside_markDegraded key).aside).side, OwnSide.lossBegins, begun,
          lossTasks, if_neg lost, if_neg lost]
        exact side_spawn _ rfl
  · next none_ => exact absurd is_own (none_ key own is_key)

theorem entries_startOwnLoss (h : OwnEntries p) (now : ℕ) : OwnEntries (p.startOwnLoss now) := by
  have quiet := PoolMoves.quiet_startOwnLoss (p := p) now
  exact h.of_same quiet.pool quiet.ownKey

theorem side_endOwnLoss {own : OwnRecovery} (is_own : p.own = some own) :
    ownSide p.endOwnLoss = { ownSide p with own := some (ended own) } := by
  unfold MediaPool.endOwnLoss
  split
  · next none_ => cases none_.symm.trans is_own
  · next own' is_own' =>
      cases is_own.symm.trans is_own'
      dsimp only
      split_ifs with lost
      · rw [ended, if_pos lost]
        rfl
      · rw [ended, if_neg lost, ← is_own]
        rfl

theorem entries_endOwnLoss (h : OwnEntries p) : OwnEntries p.endOwnLoss := by
  have quiet := PoolMoves.quiet_endOwnLoss (p := p)
  exact h.of_same quiet.pool quiet.ownKey

theorem ownEntry_of_key {key : String} (is_key : p.ownConnectionKey = some key) :
    p.ownEntry = p.pool.lookup key := by
  rw [MediaPool.ownEntry, is_key]
  rfl

theorem side_entry : (ownSide p).entry =
    p.ownEntry.map fun entry => (entry.state, entry.generation) := rfl

theorem side_spawnOwnAttempt {key : String} {own : OwnRecovery} (attempt : ℕ)
    (is_key : p.ownConnectionKey = some key) (is_own : p.own = some own) :
    ownSide (p.spawnOwnAttempt attempt) = (ownSide p).attempt own attempt := by
  unfold MediaPool.spawnOwnAttempt
  split
  · next key' own' is_key' is_own' =>
      cases is_key.symm.trans is_key'
      cases is_own.symm.trans is_own'
      extract_lets q r
      have answered : ownSide r = { ownSide p with
          own := some (attempted own)
          entry := (ownSide p).entry.map fun entry => (.connecting attempt, entry.2) } := by
        rw [side_entry, ownEntry_of_key is_key]
        unfold r
        cases found : p.pool.lookup key with
        | some entry =>
            have placed := side_setOwn (p := q) { entry with state := .connecting attempt } is_key
            exact placed
        | none =>
            have bare : (ownSide q).entry = none := by
              rw [side_entry, ownEntry_of_key (p := q) is_key, show q.pool.lookup key = none from found]
              rfl
            change ownSide q = { ownSide q with entry := none }
            rw [← bare]
      rw [side_spawn _ rfl, answered]
      rfl
  · next none_ => exact absurd is_own (none_ key own is_key)

theorem entries_spawnOwnAttempt (h : OwnEntries p) (attempt : ℕ) :
    OwnEntries (p.spawnOwnAttempt attempt) := by
  unfold MediaPool.spawnOwnAttempt
  split
  · next key own is_key is_own =>
      extract_lets q r
      have asked : OwnEntries q := h.of_same rfl rfl
      refine entries_spawn (?_ : OwnEntries r) _
      unfold r
      split
      · next entry found => exact asked.setState found rfl rfl
      · exact asked
  · exact h

theorem side_giveUpOwn {key : String} (reason : OwnConnectionLoss) (message : String)
    (is_key : p.ownConnectionKey = some key) :
    ownSide (p.giveUpOwn reason message) = (ownSide p).givenUp reason message := by
  unfold MediaPool.giveUpOwn
  split
  · next none_ => cases none_.symm.trans is_key
  · next key' is_key' =>
      cases is_key.symm.trans is_key'
      extract_lets q dropped cleared
      have removed : ownSide dropped = { ownSide p with entry := none } := side_removeOwn is_key
      have lost : ownSide cleared = { ownSide dropped with own := none, ownLost := true } :=
        (beside_clearDegraded key).aside.side
      have unreachable : Aside cleared (cleared.emit (.connectionState key .unreachable)) :=
        (beside_emit rfl).aside
      rw [side_emit _ rfl, unreachable.side, lost, removed]
      rfl

theorem entries_giveUpOwn (h : OwnEntries p) (reason : OwnConnectionLoss) (message : String) :
    OwnEntries (p.giveUpOwn reason message) := by
  unfold MediaPool.giveUpOwn
  split
  · exact h
  · next key is_key =>
      extract_lets q dropped cleared
      have calm : OwnEntries ((q.dropUnmappedOn key).dropPendingFrom key) := h.of_same rfl rfl
      have gone : OwnEntries dropped := calm.removeEntry key
      have lost : OwnEntries { dropped with own := none, ownLost := true } := gone.of_same rfl rfl
      have cleared : OwnEntries cleared := (beside_clearDegraded key).aside.entries lost
      exact cleared.of_same rfl rfl

theorem side_giveUpOwnBudget {key : String} {own : OwnRecovery}
    (is_key : p.ownConnectionKey = some key) (is_own : p.own = some own) :
    ∃ message, ownSide p.giveUpOwnBudget = (ownSide p).givenUp (spentReason own) message := by
  unfold MediaPool.giveUpOwnBudget
  split
  · next none_ => cases none_.symm.trans is_own
  · next own' is_own' =>
      cases is_own.symm.trans is_own'
      exact ⟨_, side_giveUpOwn _ _ is_key⟩

theorem entries_giveUpOwnBudget (h : OwnEntries p) : OwnEntries p.giveUpOwnBudget := by
  unfold MediaPool.giveUpOwnBudget
  split
  · exact h
  · exact entries_giveUpOwn h _ _

theorem side_ownBackoff {key : String} (attempt now : ℕ) (is_key : p.ownConnectionKey = some key) :
    ∃ delay, ownSide (p.ownBackoff attempt now) = (ownSide p).backOff attempt delay := by
  unfold MediaPool.ownBackoff
  split
  · next none_ => cases none_.symm.trans is_key
  · next key' is_key' =>
      cases is_key.symm.trans is_key'
      extract_lets q left delay
      refine ⟨left.elim delay (min delay), ?_⟩
      have waiting : ownSide q = { ownSide p with
          entry := (ownSide p).entry.map fun entry => (.backoff attempt, entry.2) } := by
        rw [side_entry, ownEntry_of_key is_key]
        unfold q
        cases found : p.pool.lookup key with
        | some entry => exact side_setOwn { entry with state := .backoff attempt } is_key
        | none =>
            have bare : (ownSide p).entry = none := by
              rw [side_entry, ownEntry_of_key is_key, found]
              rfl
            change ownSide p = { ownSide p with entry := none }
            rw [← bare]
      rw [side_spawn _ rfl, waiting]
      rfl

theorem entries_ownBackoff (h : OwnEntries p) (attempt now : ℕ) :
    OwnEntries (p.ownBackoff attempt now) := by
  unfold MediaPool.ownBackoff
  split
  · exact h
  · extract_lets q left delay
    refine entries_spawn (?_ : OwnEntries q) _
    unfold q
    split
    · next entry found => exact h.setState found rfl rfl
    · exact h

theorem side_installed {key : String} (entry : ManagedConnection) (connection : ℕ)
    (is_key : p.ownConnectionKey = some key) :
    ownSide (p.installed key entry connection) =
      { ownSide p with entry := some (.up connection, p.connectionGeneration + 1) } := by
  unfold MediaPool.installed
  extract_lets generation numbered set
  have placed : ownSide set = { ownSide numbered with entry := some (.up connection, generation) } :=
    side_setOwn _ is_key
  have forwarded : Aside set (set.spawnForwarder key generation) := aside_spawn rfl
  rw [forwarded.side, placed]
  rfl

theorem entries_installed (h : OwnEntries p) {key : String} {entry : ManagedConnection}
    (found : p.pool.lookup key = some entry) (connection : ℕ) :
    OwnEntries (p.installed key entry connection) := by
  unfold MediaPool.installed
  extract_lets generation numbered set
  have numbered : OwnEntries numbered := h.of_same rfl rfl
  have set : OwnEntries set := numbered.setState found rfl rfl
  exact set.of_same rfl rfl

theorem mem_of_foldl_choice {α : Type} {f : Option α → α → Option α}
    (choice : ∀ found e, f found e = some e ∨ f found e = found) {xs : List α}
    {start : Option α} {x : α} (h : xs.foldl f start = some x) : x ∈ xs ∨ start = some x := by
  induction xs generalizing start with
  | nil => exact .inr h
  | cons e rest ih =>
      obtain later | first := ih h
      · exact .inl (.tail _ later)
      · obtain next | kept := choice start e
        · cases next.symm.trans first
          exact .inl (.head _)
        · exact .inr (kept.symm.trans first)

/-- The focus to fall back to is another than ours, in a loss that lasts. -/
theorem fallbackChoice_spec {now : ℕ} {ownKey target : String}
    (h : p.fallbackChoice now = some (ownKey, target)) :
    p.ownConnectionKey = some ownKey ∧ target ≠ ownKey ∧ p.closed = false ∧
      ∃ own, p.own = some own ∧ own.lostSince.isSome := by
  simp only [MediaPool.fallbackChoice, Option.bind_eq_bind, Option.bind_eq_some_iff,
    Option.guard_eq_some'] at h
  obtain ⟨-, may, ownKey', is_key, since, lost, -, -, -, -, target', chosen, same⟩ := h
  cases same
  obtain ⟨own, is_own, lost⟩ := lost
  refine ⟨is_key, ?_, ?_, own, is_own, Option.isSome_of_mem lost⟩
  · obtain ⟨e, best, rfl⟩ := Option.map_eq_some_iff.mp chosen
    refine (mem_of_foldl_choice (fun found e => ?_) best).elim (fun there => ?_) (nomatch ·)
    · cases found with
      | none => exact .inl rfl
      | some best =>
          dsimp only
          split_ifs
          · exact .inr rfl
          · exact .inl rfl
    · have kept := (List.mem_filter.mp there).2
      simp only [Bool.and_eq_true, bne_iff_ne] at kept
      exact kept.1.1
  · simp only [Bool.and_eq_true, Bool.not_eq_true'] at may
    exact may.2

/-- Our own entry goes, and that of another focus becomes ours. -/
theorem OwnEntries.taken (h : OwnEntries p) {ownKey : String}
    (is_key : p.ownConnectionKey = some ownKey) (target : String) {entry : ManagedConnection}
    (own : entry.isOwn = true) (backend : entry.backend = none) :
    OwnEntries { (p.removeEntry ownKey).setEntry target entry with
      ownConnectionKey := some target } := by
  have apart {key : String} {other : ManagedConnection}
      (there : (p.removeEntry ownKey).pool.lookup key = some other) : other.isOwn = false := by
    obtain ⟨ne, before⟩ := of_lookup_erase there
    by_contra is_own
    rw [Bool.not_eq_false] at is_own
    exact ne (Option.some.inj (((h.own before).mp is_own).symm.trans is_key))
  constructor
  · intro key other there
    obtain ⟨rfl, rfl⟩ | ⟨ne, before⟩ := of_lookup_insert there
    · simp [own]
    · simp [apart before, Ne.symm ne]
  · intro key other there is_own
    obtain ⟨rfl, rfl⟩ | ⟨ne, before⟩ := of_lookup_insert there
    · exact backend
    · rw [apart before] at is_own
      cases is_own

/-- Our handle has taken a peer's connection over, and nothing of our own is left behind. -/
theorem side_movedTo (h : OwnEntries p) {ownKey target : String} {own : OwnRecovery}
    {entry : ManagedConnection} (transport : RtcTransport)
    (is_key : p.ownConnectionKey = some ownKey) (differs : target ≠ ownKey)
    (found : p.pool.lookup target = some entry) :
    ownSide (p.movedTo ownKey target own transport) =
        { ownSide p with
          key := some target
          own := some (ended { own with everUp := true })
          entry := some (.up own.connection, entry.generation)
          news := (ownSide p).news ++ [.ownFocusMoved target transport] } ∧
      OwnEntries (p.movedTo ownKey target own transport) := by
  unfold MediaPool.movedTo
  extract_lets up gone taken renamed told opened
  have stays : gone.pool.lookup target = some entry := (AList.lookup_erase_ne differs).trans found
  have entered : taken = gone.setEntry target { entry with
      isOwn := true, backend := none, state := .up own.connection } := by
    unfold taken
    rw [stays]
  have named : OwnEntries { taken with ownConnectionKey := some target } := by
    have placed : OwnEntries { (p.removeEntry ownKey).setEntry target { entry with
        isOwn := true, backend := none, state := .up own.connection } with
        ownConnectionKey := some target } := h.taken is_key target rfl rfl
    rw [entered]
    exact placed.of_same rfl rfl
  have side : ownSide { taken with ownConnectionKey := some target } =
      { ownSide p with
        key := some target
        own := some { own with everUp := true }
        entry := some (.up own.connection, entry.generation) } := by
    rw [entered]
    exact side_setOwn (p := { gone with ownConnectionKey := some target })
      { entry with isOwn := true, backend := none, state := .up own.connection } rfl
  have toTold : ownSide told = { ownSide renamed with
      news := (ownSide renamed).news ++ [.ownFocusMoved target transport] } := by
    unfold told
    rw [(beside_emit rfl).aside.side, side_emit _ rfl]
  have renamedSide : ownSide renamed = { ownSide { taken with ownConnectionKey := some target } with
      own := some (ended { own with everUp := true }) } := by
    refine side_endOwnLoss ?_
    rw [entered]
    rfl
  have toldEntries : OwnEntries told := (entries_endOwnLoss named).of_same rfl rfl
  have reconciled := aside_reconcilePool toldEntries
  have result : Aside told (if (opened.pool.lookup ownKey).isNone then opened.clearDegraded ownKey
      else opened) := by
    split_ifs
    · exact reconciled.trans (beside_clearDegraded ownKey).aside
    · exact reconciled
  refine ⟨?_, result.entries toldEntries⟩
  rw [result.side, toTold, renamedSide, side]

/-- A call does one of the things there are to do about our own focus. -/
structure Does (now : ℕ) (p : MediaPool) (call : Call) (q : MediaPool) : Prop where
  move : OwnMove now (ownSide p) call (ownSide q)
  entries : OwnEntries q

namespace Does

theorem still {now : ℕ} {call : Call} (h : OwnEntries p) (aside : Aside p q)
    (unlinked : links (ownSide p) call = false) : Does now p call q where
  move := by
    rw [aside.side]
    exact .still unlinked
  entries := aside.entries h

theorem after {now : ℕ} {call : Call} (aside : Aside p q) (does : Does now q call r) :
    Does now p call r := ⟨aside.side ▸ does.move, does.entries⟩

theorem before {now : ℕ} {call : Call} (does : Does now p call q) (aside : Aside q r) :
    Does now p call r := ⟨aside.side ▸ does.move, aside.entries does.entries⟩

end Does

/-- Trying to fall back moves our own focus, or does nothing about it. -/
theorem does_tryFallback (h : OwnEntries p) (now : ℕ) (takeOver : Except TransportError Unit)
    {call : Call} (may : mayMove call) (unlinked : links (ownSide p) call = false) :
    Does now p call (p.tryFallback now takeOver) := by
  unfold MediaPool.tryFallback
  split
  · exact .still h (.refl p) unlinked
  · next ownKey target chosen =>
      obtain ⟨is_key, differs, opened, own, is_own, lost⟩ := fallbackChoice_spec chosen
      split_ifs
      · unfold MediaPool.fallBack
        split
        · next own' transport entry is_own' _ found =>
            cases is_own.symm.trans is_own'
            split_ifs
            · cases takeOver with
              | error error => exact .still h (.of_frame rfl) unlinked
              | ok _ =>
                  obtain ⟨side, entries⟩ := side_movedTo h transport is_key differs found
                  refine ⟨?_, entries⟩
                  dsimp only
                  rw [side]
                  exact .moved entry.generation transport may is_own lost opened
            · exact .still h (.refl p) unlinked
        · exact .still h (.refl p) unlinked
      · exact .still h (.of_frame rfl) unlinked

theorem does_peerUp (h : OwnEntries p) (key : String) (now : ℕ)
    (takeOver : Except TransportError Unit) {call : Call} (may : mayMove call)
    (unlinked : links (ownSide p) call = false) :
    Does now p call (p.peerUp key now takeOver) := by
  unfold MediaPool.peerUp
  split_ifs
  · exact .still h (.refl p) unlinked
  · exact does_tryFallback h now takeOver may unlinked

/-- Our own focus has an entry as long as it is being looked after. -/
def Whole (v : OwnSide) : Prop := v.entry.isSome ↔ v.own.isSome ∧ v.closed = false

/-- The result of a connect to a peer's focus counts for our own focus, which waits for an
attempt of that number. -/
def overtakes (p : MediaPool) : Call → Bool
  | .handle (.connectFinished key attempt _) =>
      p.ownConnectionKey == some key && p.ownEntry.any (·.state == .connecting attempt)
  | _ => false

theorem does_connectFinished (h : OwnEntries p) {key : String} {attempt : ℕ}
    {result : Except TransportError ℕ} (now : ℕ) (takeOver : Except TransportError Unit)
    (apart : overtakes p (.handle (.connectFinished key attempt result)) = false) :
    Does now p (.handle (.connectFinished key attempt result))
      (p.connectFinished key attempt result now takeOver) := by
  unfold MediaPool.connectFinished
  split
  · exact .still h (calm_closeStray result).beside.aside rfl
  · next entry found =>
      split_ifs with differs idle
      · exact .still h (calm_closeStray result).beside.aside rfl
      · rw [Bool.and_eq_true, Bool.not_eq_true'] at idle
        exact .still h (((aside_removePeer (h.peer found idle.2)).trans
          (beside_clearDegraded key).aside).trans (calm_closeStray result).beside.aside) rfl
      · have notOwn : entry.isOwn = false := by
          by_contra is_own
          rw [Bool.not_eq_false] at is_own
          have is_key := (h.own found).mp is_own
          rw [not_not] at differs
          simp [overtakes, is_key, ownEntry_of_key is_key, found, differs] at apart
        have peer := h.peer found notOwn
        cases result with
        | ok connection =>
            have up := (aside_installed connection peer notOwn).trans (beside_clearDegraded key).aside
            exact .after up (does_peerUp (up.entries h) key now takeOver rfl rfl)
        | error error =>
            have marked := (beside_markDegraded (p := p) key).aside
            have waits := aside_setPeer { entry with state := .backoff (attempt + 1) }
              (marked.peer peer) notOwn
            exact .still h ((marked.trans waits).trans (aside_spawn rfl)) rfl

theorem unlinked_of_ends {v : OwnSide} {call : Call} {key : String} {generation : ℕ}
    (by_end : ends call key generation) : links v call = false := by
  obtain rfl | ⟨message, rfl⟩ := by_end <;> rfl

theorem unlinked_of_peer {v : OwnSide} {key : String} {generation : ℕ}
    (peer : v.key ≠ some key) :
    links v (.handle (.connection key generation .reconnected)) = false := by
  simp [links, peer]

theorem unlinked_of_replaced {key : String} {generation : ℕ} (event : ConnectionEvent)
    (replaced : ¬ p.isCurrent key generation) :
    links (ownSide p) (.handle (.connection key generation event)) = false := by
  cases event with
  | reconnected =>
      by_contra linked
      rw [Bool.not_eq_false, links, Bool.and_eq_true, beq_iff_eq] at linked
      obtain ⟨is_key, entry⟩ := linked
      refine replaced ?_
      rw [side_entry, ownEntry_of_key is_key, Option.any_map] at entry
      exact entry
  | _ => rfl

theorem does_connectionDown (h : OwnEntries p) (whole : Whole (ownSide p)) {key : String}
    {generation : ℕ} (message : String) (now : ℕ) {call : Call}
    (by_end : ends call key generation) :
    Does now p call (p.connectionDown key generation message now) := by
  have toDropped : Aside p ((p.dropUnmappedOn key).dropPendingFrom key) :=
    (calm_dropped key).beside.aside
  have toMarked := (toDropped.trans (calm_retireTracks key).beside.aside).trans
    (beside_markDegraded key).aside
  unfold MediaPool.connectionDown
  split
  · exact .still h (.refl p) (unlinked_of_ends by_end)
  · next entry found =>
      by_cases is_own : entry.isOwn = true
      · have is_key := (h.own found).mp is_own
        have side : (ownSide p).entry = some (entry.state, entry.generation) := by
          rw [side_entry, ownEntry_of_key is_key, found]
          rfl
        obtain ⟨own, recovering⟩ := Option.isSome_iff_exists.mp
          (whole.mp (Option.isSome_of_mem side)).1
        have recovering : p.own = some own := recovering
        split_ifs with current lost
        · exact .still h (.refl p) (unlinked_of_ends by_end)
        · simp [is_own, recovering] at lost
        · have marked := toMarked.entries h
          have begins := side_startOwnLoss now (toMarked.key.trans is_key)
            (toMarked.own.trans recovering)
          refine .after toMarked ⟨?_, entries_spawnOwnAttempt (entries_startOwnLoss marked now) 0⟩
          rw [side_spawnOwnAttempt 0 (congrArg OwnSide.key begins |>.trans
            (toMarked.key.trans is_key)) (congrArg OwnSide.own begins), begins]
          rw [Bool.or_eq_true, decide_eq_true_eq, Bool.not_eq_true', not_or, not_not,
            Bool.not_eq_false] at current
          obtain ⟨rfl, up⟩ := current
          cases state : entry.state with
          | connecting | backoff => simp [ConnState.isUp, state] at up
          | up connection =>
              rw [state] at side
              exact .down by_end (toMarked.key.trans is_key)
                ((congrArg OwnSide.entry toMarked.side).trans side)
                (toMarked.own.trans recovering)
      · rw [Bool.not_eq_true] at is_own
        have peer := toMarked.peer (h.peer found is_own)
        split_ifs with current lost ours empty
        · exact .still h (.refl p) (unlinked_of_ends by_end)
        · simp [is_own] at lost
        · exact absurd (is_own.symm.trans ours) Bool.false_ne_true
        · have removed := toMarked.trans (aside_removePeer peer)
          exact .still h (removed.trans (beside_clearDegraded key).aside) (unlinked_of_ends by_end)
        · exact .still h ((toMarked.trans (aside_setPeer { entry with state := .backoff 0 } peer
            is_own)).trans (aside_spawn rfl)) (unlinked_of_ends by_end)

theorem does_reconnecting (h : OwnEntries p) (whole : Whole (ownSide p)) {key : String}
    {generation : ℕ} (current : p.isCurrent key generation) (now : ℕ) :
    Does now p (.handle (.connection key generation .reconnecting)) (p.reconnecting key now) := by
  unfold MediaPool.reconnecting
  extract_lets marked
  have toMarked : Aside p marked := (beside_markDegraded key).aside
  split_ifs with is_key
  · obtain ⟨entry, found, same⟩ := (Option.any_eq_true _ _).mp current
    have side : (ownSide p).entry = some (entry.state, entry.generation) := by
      rw [side_entry, ownEntry_of_key (toMarked.key.symm.trans is_key), found]
      rfl
    obtain ⟨own, recovering⟩ := Option.isSome_iff_exists.mp
      (whole.mp (Option.isSome_of_mem side)).1
    refine .after toMarked ⟨?_, entries_startOwnLoss (toMarked.entries h) now⟩
    rw [side_startOwnLoss now is_key (toMarked.own.trans recovering)]
    rw [beq_iff_eq.mp same] at side
    exact .linkLost is_key ((congrArg OwnSide.entry toMarked.side).trans side)
      (toMarked.own.trans recovering)
  · exact .still h toMarked rfl

theorem does_reconnected (h : OwnEntries p) (whole : Whole (ownSide p)) {key : String}
    {generation : ℕ} (current : p.isCurrent key generation) (now : ℕ)
    (takeOver : Except TransportError Unit) :
    Does now p (.handle (.connection key generation .reconnected))
      (p.reconnected key now takeOver) := by
  unfold MediaPool.reconnected
  by_cases is_key : p.ownConnectionKey = some key
  · rw [if_pos is_key]
    obtain ⟨entry, found, same⟩ := (Option.any_eq_true _ _).mp current
    have side : (ownSide p).entry = some (entry.state, entry.generation) := by
      rw [side_entry, ownEntry_of_key is_key, found]
      rfl
    obtain ⟨own, recovering⟩ := Option.isSome_iff_exists.mp
      (whole.mp (Option.isSome_of_mem side)).1
    have recovering : p.own = some own := recovering
    have ended_ := side_endOwnLoss recovering
    have cleared := (beside_clearDegraded (p := p.endOwnLoss) key).aside
    have still : (p.endOwnLoss.clearDegraded key).peerUp key now takeOver =
        p.endOwnLoss.clearDegraded key := by
      refine if_pos (cleared.key.trans ?_)
      exact (congrArg OwnSide.key ended_).trans is_key
    extract_lets linked
    rw [show (linked.clearDegraded key).peerUp key now takeOver = linked.clearDegraded key from
      still]
    refine .before ⟨?_, entries_endOwnLoss h⟩
      (cleared.trans (calm_reapplyConnectionConstraints key).beside.aside)
    rw [beq_iff_eq.mp same] at side
    rw [ended_]
    exact .linkBack is_key side recovering
  · rw [if_neg is_key]
    have cleared := (beside_clearDegraded (p := p) key).aside
    have peer : (ownSide (p.clearDegraded key)).key ≠ some key := cleared.peer is_key
    exact .before (.after cleared
      (does_peerUp (cleared.entries h) key now takeOver rfl (unlinked_of_peer peer)))
      (calm_reapplyConnectionConstraints key).beside.aside

theorem does_handleConnectionEvent (h : OwnEntries p) (whole : Whole (ownSide p)) {key : String}
    {generation : ℕ} (current : p.isCurrent key generation) (event : ConnectionEvent) (now : ℕ)
    (takeOver : Except TransportError Unit) :
    Does now p (.handle (.connection key generation event))
      (p.handleConnectionEvent key event now takeOver) := by
  cases event with
  | reconnecting => exact does_reconnecting h whole current now
  | reconnected => exact does_reconnected h whole current now takeOver
  | closed message =>
      obtain ⟨entry, found, same⟩ := (Option.any_eq_true _ _).mp current
      have numbered : ((p.pool.lookup key).map (·.generation)).getD 0 = generation := by
        rw [found]
        exact beq_iff_eq.mp same
      refine does_connectionDown h whole message now (.inr ⟨message, ?_⟩)
      rw [numbered]
  | _ => exact .still h (calm_handleConnectionEvent rfl key now takeOver).beside.aside rfl

theorem does_giveUpOwnBudget (h : OwnEntries p) {key : String} {own : OwnRecovery}
    (is_key : p.ownConnectionKey = some key) (is_own : p.own = some own) {now : ℕ} {call : Call}
    (moves : ∀ message, OwnMove now (ownSide p) call
      ((ownSide p).givenUp (spentReason own) message)) : Does now p call p.giveUpOwnBudget := by
  obtain ⟨message, side⟩ := side_giveUpOwnBudget is_key is_own
  exact ⟨side ▸ moves message, entries_giveUpOwnBudget h⟩

theorem does_ownConnectFinished (h : OwnEntries p) (attempt : ℕ)
    (result : Except TransportError Unit) (now : ℕ) :
    Does now p (.handle (.ownConnectFinished attempt result))
      (p.ownConnectFinished attempt result now) := by
  unfold MediaPool.ownConnectFinished
  split
  · next key own is_key is_own =>
      split
      · split
        · split_ifs
          · exact .still h (aside_spawn rfl) rfl
          · exact .still h (.refl p) rfl
        · exact .still h (.refl p) rfl
      · next entry current =>
          obtain ⟨found, waits⟩ := Option.filter_eq_some_iff.mp current
          have side : (ownSide p).entry = some (.connecting attempt, entry.generation) := by
            rw [side_entry, ownEntry_of_key is_key, found, ← of_decide_eq_true waits]
            rfl
          have refuses (message : String) (error : TransportError)
              (why : error = .refused message ∨
                error = .tokenRejected message ∧ (own.budgetSpent ∨ own.tokenRefetched)) :
              Does now p (.handle (.ownConnectFinished attempt (.error error)))
                (p.giveUpOwn .refused message) := by
            refine ⟨?_, entries_giveUpOwn h _ _⟩
            rw [side_giveUpOwn _ _ is_key]
            exact .refused side is_own why
          have spends (error : TransportError) (spent : own.budgetSpent) :
              Does now p (.handle (.ownConnectFinished attempt (.error error)))
                p.giveUpOwnBudget :=
            does_giveUpOwnBudget h is_key is_own fun message =>
              .spent error message side is_own spent
          have fails (error : TransportError) :
              Does now p (.handle (.ownConnectFinished attempt (.error error)))
                (p.ownBackoff (attempt + 1) now) := by
            obtain ⟨delay, backs⟩ := side_ownBackoff (attempt + 1) now is_key
            refine ⟨?_, entries_ownBackoff h _ now⟩
            rw [backs]
            exact .failed error delay side is_own
          cases result with
          | ok _ =>
              dsimp only
              have ups : OwnEntries { p with own := some { own with everUp := true } } :=
                h.of_same rfl rfl
              have installs := entries_installed ups found own.connection
              have placed := side_installed
                (p := { p with own := some { own with everUp := true } }) entry own.connection is_key
              have ends_ := side_endOwnLoss (congrArg OwnSide.own placed)
              refine .before ⟨?_, entries_endOwnLoss installs⟩
                ((beside_clearDegraded key).aside.trans
                  (calm_reapplyConnectionConstraints key).beside.aside)
              rw [ends_, placed]
              exact .connected side is_own
          | error error =>
              by_cases spent : own.budgetSpent = true
              · simp only [if_pos spent]
                cases error with
                | tokenRejected message => exact refuses message _ (.inr ⟨rfl, .inl spent⟩)
                | refused message => exact refuses message _ (.inl rfl)
                | unsupported | connect | closed => exact spends _ spent
              · simp only [if_neg spent]
                cases error with
                | tokenRejected message =>
                    dsimp only
                    split_ifs with refetched
                    · exact refuses message _ (.inr ⟨rfl, .inr refetched⟩)
                    · have asks : OwnEntries { p with own := some { own with
                          tokenRefetched := true, refetchNext := true } } := h.of_same rfl rfl
                      obtain ⟨delay, backs⟩ := side_ownBackoff (p := { p with
                        own := some { own with tokenRefetched := true, refetchNext := true } })
                        (attempt + 1) now is_key
                      refine ⟨?_, entries_ownBackoff asks _ now⟩
                      rw [backs]
                      exact .refetched message delay side is_own
                | refused message => exact refuses message _ (.inl rfl)
                | unsupported | connect | closed => exact fails _
  · exact .still h (.refl p) rfl

theorem does_ownRetry (h : OwnEntries p) (whole : Whole (ownSide p)) (attempt now : ℕ)
    (takeOver : Except TransportError Unit) :
    Does now p (.handle (.ownRetry attempt)) (p.ownRetry attempt now takeOver) := by
  unfold MediaPool.ownRetry
  extract_lets tried
  have tries : Does now p (.handle (.ownRetry attempt)) tried :=
    does_tryFallback h now takeOver rfl rfl
  split_ifs with due
  · obtain ⟨entry, found, waits⟩ := (Option.any_eq_true _ _).mp due
    have side : (ownSide tried).entry = some (.backoff attempt, entry.generation) := by
      rw [side_entry, found, ← of_decide_eq_true waits]
      rfl
    -- The focus that our media moves to is up, so here it has not moved.
    have still : ownSide tried = ownSide p := by
      have move : OwnMove now (ownSide p) (.setSignallingReachable true) (ownSide tried) :=
        (does_tryFallback h now takeOver rfl rfl).move
      generalize ownSide tried = w at move side
      cases move with
      | still => rfl
      | moved => cases side
      | down by_end => simp [ends] at by_end
    have before : (ownSide p).entry = some (.backoff attempt, entry.generation) := still ▸ side
    obtain ⟨own, is_own⟩ := Option.isSome_iff_exists.mp
      (whole.mp (Option.isSome_of_mem before)).1
    obtain ⟨key, is_key⟩ : ∃ key, tried.ownConnectionKey = some key := by
      unfold MediaPool.ownEntry at found
      obtain ⟨key, is_key, -⟩ := Option.bind_eq_some_iff.mp found
      exact ⟨key, is_key⟩
    refine ⟨?_, entries_spawnOwnAttempt tries.entries attempt⟩
    rw [side_spawnOwnAttempt attempt is_key ((congrArg OwnSide.own still).trans is_own), still]
    exact .retried before is_own
  · exact tries

theorem does_ownBudget (h : OwnEntries p) (epoch now : ℕ) :
    Does now p (.handle (.ownBudget epoch)) (p.ownBudget epoch) := by
  unfold MediaPool.ownBudget
  split_ifs with stands
  · obtain ⟨own, is_own, lasts⟩ := (Option.any_eq_true _ _).mp stands
    rw [Bool.and_eq_true, beq_iff_eq] at lasts
    obtain ⟨rfl, lost⟩ := lasts
    extract_lets spent retried
    have recovering : spent.own = some { own with budgetSpent := true } := by
      change p.own.map _ = _
      rw [is_own]
      rfl
    have spentSide : ownSide spent =
        { ownSide p with own := some { own with budgetSpent := true } } := by
      change { ownSide p with own := spent.own } = _
      rw [recovering]
    have spentEntries : OwnEntries spent := h.of_same rfl rfl
    suffices moves : OwnMove now (ownSide p) (.handle (.ownBudget own.epoch))
        { ownSide retried with
          tasks := (ownSide retried).tasks ++
            [.ownFinalAttempt own.epoch ownFinalAttemptGrace] } ∧ OwnEntries retried by
      have last := side_spawn (p := retried) (.ownFinalAttempt own.epoch ownFinalAttemptGrace) rfl
      exact ⟨last ▸ moves.1, entries_spawn moves.2 _⟩
    unfold retried
    split
    · next attempt waits =>
        obtain ⟨entry, found, state⟩ := Option.map_eq_some_iff.mp waits
        obtain ⟨key, is_key, -⟩ := Option.bind_eq_some_iff.mp
          (show spent.ownConnectionKey.bind _ = some entry from found)
        have side : (ownSide p).entry = some (.backoff attempt, entry.generation) := by
          rw [side_entry, show p.ownEntry = some entry from found, ← state]
          rfl
        refine ⟨?_, entries_spawnOwnAttempt spentEntries attempt⟩
        dsimp only
        rw [side_spawnOwnAttempt attempt is_key recovering, spentSide]
        exact .lastAttempt is_own lost side
    · next waits =>
        refine ⟨?_, spentEntries⟩
        dsimp only
        rw [spentSide]
        refine .budgetOver is_own lost fun attempt generation side => ?_
        obtain ⟨entry, found, same⟩ := Option.map_eq_some_iff.mp side
        refine waits attempt ?_
        rw [show spent.ownEntry = some entry from found, Option.map_some]
        exact congrArg some (congrArg Prod.fst same)
  · exact .still h (.refl p) rfl

theorem does_finalAttemptExpired (h : OwnEntries p) (epoch now : ℕ) :
    Does now p (.handle (.ownFinalAttemptExpired epoch))
      (if p.finalAttemptOver epoch then p.giveUpOwnBudget else p) := by
  split_ifs with expired
  · obtain ⟨own, is_own, lasts⟩ := (Option.any_eq_true _ _).mp expired
    rw [Bool.and_eq_true, Bool.and_eq_true, beq_iff_eq] at lasts
    obtain ⟨⟨rfl, spent⟩, lost⟩ := lasts
    cases is_key : p.ownConnectionKey with
    | none =>
        have same : p.giveUpOwnBudget = p := by
          simp [MediaPool.giveUpOwnBudget, MediaPool.giveUpOwn, is_own, is_key]
        rw [same]
        exact .still h (.refl p) rfl
    | some key =>
        exact does_giveUpOwnBudget h is_key is_own fun message =>
          .expired message is_own spent lost
  · exact .still h (.refl p) rfl

theorem does_handle (h : OwnEntries p) (whole : Whole (ownSide p)) (message : Message)
    (apart : overtakes p (.handle message) = false) (now : ℕ)
    (takeOver : Except TransportError Unit) :
    Does now p (.handle message) (p.handle message now takeOver) := by
  unfold MediaPool.handle
  cases message with
  | connection key generation event =>
      dsimp only
      split_ifs with current
      · exact does_handleConnectionEvent h whole current event now takeOver
      · exact .still h (.refl p) (unlinked_of_replaced event current)
  | connectionEnded key generation => exact does_connectionDown h whole _ now (.inl rfl)
  | connectFinished key attempt result => exact does_connectFinished h now takeOver apart
  | retryConnect key attempt => exact .still h (aside_retryConnect h key attempt) rfl
  | closeIfIdle key idleGeneration => exact .still h (aside_closeIfIdle h key idleGeneration) rfl
  | applyConstraints memberId kind generation =>
      dsimp only
      split_ifs
      · exact .still h (calm_applyConstraintsNow memberId kind).beside.aside rfl
      · exact .still h (.refl p) rfl
  | ownConnectFinished attempt result => exact does_ownConnectFinished h attempt result now
  | ownRetry attempt => exact does_ownRetry h whole attempt now takeOver
  | ownBudget epoch => exact does_ownBudget h epoch now
  | ownFinalAttemptExpired epoch => exact does_finalAttemptExpired h epoch now
  | ownFallback epoch =>
      dsimp only
      split_ifs
      · exact does_tryFallback h now takeOver rfl rfl
      · exact .still h (.refl p) rfl

theorem does_connectOwn (h : OwnEntries p) {key : String} (connection now : ℕ)
    (may : PoolTasks.allowed p (.connectOwn key connection)) :
    Does now p (.connectOwn key connection) (p.connectOwn key connection now) := by
  simp only [PoolTasks.allowed, Bool.and_eq_true, Bool.not_eq_true', Option.isNone_iff_eq_none,
    beq_iff_eq] at may
  obtain ⟨⟨⟨fresh, unlost⟩, opened⟩, is_key⟩ := may
  unfold MediaPool.connectOwn
  extract_lets q entered
  have same : OwnEntries q := h.of_same rfl rfl
  have entries : OwnEntries entered := same.place is_key rfl rfl
  have placed : ownSide entered = { ownSide p with
      own := some (handed connection false), entry := some (.connecting 0, 0) } :=
    side_setOwn _ is_key
  have begins := side_startOwnLoss now (p := entered) is_key rfl
  refine ⟨?_, entries_spawnOwnAttempt (entries_startOwnLoss entries now) 0⟩
  rw [side_spawnOwnAttempt 0 ((congrArg OwnSide.key begins).trans is_key)
    (congrArg OwnSide.own begins), begins, placed]
  exact .began connection is_key fresh unlost opened

theorem does_adoptOwnConnection (h : OwnEntries p) {key : String} (connection now : ℕ)
    (may : PoolTasks.allowed p (.adoptOwnConnection key connection)) :
    Does now p (.adoptOwnConnection key connection) (p.adoptOwnConnection key connection) := by
  simp only [PoolTasks.allowed, Bool.and_eq_true, Bool.not_eq_true', Option.isNone_iff_eq_none,
    beq_iff_eq] at may
  obtain ⟨⟨⟨fresh, unlost⟩, opened⟩, is_key⟩ := may
  unfold MediaPool.adoptOwnConnection
  extract_lets generation q
  have same : OwnEntries q := h.of_same rfl rfl
  have placed := side_setOwn (p := q)
    { backend := none, members := p.membersOnKey key, isOwn := true, state := .up connection
      generation := generation, idleGeneration := 0 } is_key
  refine .before ⟨?_, same.place is_key rfl rfl⟩ (aside_spawn rfl)
  rw [placed]
  exact .adopted is_key fresh unlost opened

theorem does_setSignallingReachable (h : OwnEntries p) (reachable : Bool) (now : ℕ)
    (takeOver : Except TransportError Unit) :
    Does now p (.setSignallingReachable reachable)
      (p.setSignallingReachable reachable now takeOver) := by
  unfold MediaPool.setSignallingReachable
  extract_lets q
  have set : Aside p q := .of_frame rfl
  split_ifs
  · exact .after set (does_tryFallback (set.entries h) now takeOver rfl rfl)
  · exact .still h set rfl

theorem does_close (now : ℕ) : Does now p .close p.close := by
  unfold MediaPool.close
  extract_lets q
  have entries : OwnEntries q := by
    constructor
    · intro key entry found
      cases found
    · intro key entry found
      cases found
  have side : ownSide q = { ownSide p with
      own := (ownSide p).own.map fun own => { own with epoch := own.epoch + 1, lostSince := none }
      entry := none
      closed := true } := by
    have gone : q.ownEntry = none := by
      unfold MediaPool.ownEntry
      cases q.ownConnectionKey <;> rfl
    unfold ownSide
    rw [gone]
    rfl
  refine .before ⟨?_, entries⟩
    (Calm.foldl (fun _ (e : Sigma fun _ : String => ManagedConnection) =>
      calm_closeEntry e.2) _ _).beside.aside
  rw [side]
  exact .closed

/-- What a call does about our own focus, where it does not take a connect to a peer's for an
attempt at our own. -/
theorem does_perform (h : OwnEntries p) (whole : Whole (ownSide p)) {input : Input}
    (may : PoolTasks.allowed p input.call ∨ ∃ message, input.call = .handle message)
    (apart : overtakes p input.call = false) :
    Does input.now p input.call (p.perform input) := by
  unfold MediaPool.perform
  cases call : input.call with
  | handle message => exact does_handle h whole message (call ▸ apart) _ _
  | applySnapshot snapshot => exact .still h (aside_applySnapshot h snapshot) rfl
  | adoptOwnConnection key connection =>
      obtain may | ⟨message, other⟩ := may
      · exact does_adoptOwnConnection h connection _ (call ▸ may)
      · cases call.symm.trans other
  | connectOwn key connection =>
      obtain may | ⟨message, other⟩ := may
      · exact does_connectOwn h connection _ (call ▸ may)
      · cases call.symm.trans other
  | keyImported identity keyIndex =>
      exact .still h (calm_keyImported identity keyIndex).beside.aside rfl
  | setConstraints memberId kind constraints =>
      exact .still h (calm_setConstraints memberId kind constraints).beside.aside rfl
  | setSignallingReachable reachable => exact does_setSignallingReachable h reachable _ _
  | close => exact does_close _

/-- An entry comes and goes with the recovery. -/
theorem OwnMove.whole {now : ℕ} {v w : OwnSide} {call : Call} (move : OwnMove now v call w)
    (before : Whole v) : Whole w := by
  unfold Whole at before ⊢
  cases move with
  | still => exact before
  | began _ _ _ _ opened | adopted _ _ _ opened | moved _ _ _ _ _ opened =>
      simp [OwnSide.attempt, OwnSide.lossBegins, opened]
  | linkLost _ entry is_own | linkBack _ entry is_own | down _ _ entry is_own
  | connected entry is_own | failed _ _ entry is_own | refetched _ _ entry is_own
  | retried entry is_own | lastAttempt is_own _ entry =>
      simp only [entry, is_own, Option.isSome_some, true_iff, true_and] at before
      simp [OwnSide.attempt, OwnSide.lossBegins, OwnSide.backOff, entry, is_own, before]
  | refused | spent | expired => simp [OwnSide.givenUp]
  | budgetOver is_own =>
      rw [is_own] at before
      exact before
  | closed => simp

end

end MatrixRtc.OwnFocus

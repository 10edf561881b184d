import MatrixRtc.PoolConnects
import MatrixRtc.OwnLosses
import Mathlib.Data.List.Chain

/-!
# The impairment of a media pool

A pool counts the focuses that have no connection, or one that lost its link, and reports
when there is the first of them and when there is none left. Whatever takes a connection or
brings one also says so: a focus that counts as impaired has an entry, and one that is up
only while its transport is without its link.
-/
namespace MatrixRtc.PoolImpairments
open MemberEvents MediaTransports Tables MediaPools PoolFrames OwnFocus PoolConnects PoolTasks
  StepRuns OwnLosses

/-- What was reported of the impairment, before the call at hand and in it. -/
def said (before : List PoolEvent) (p : MediaPool) : List Bool :=
  (before ++ p.out).filterMap impairmentOf

/-- What there is to report of the impairment after a change of the pool. -/
def change (p q : MediaPool) : List Bool :=
  if q.degradedKeys.isEmpty = p.degradedKeys.isEmpty then [] else [!q.degradedKeys.isEmpty]

/-- The impairment is reported where it changes, and an impaired focus has an entry that is
not up, or that is among the `links` being re-established: but for the focus a call is at. -/
structure Impaired (links : List (String × ℕ)) (before : List PoolEvent) (but : Option String)
    (p : MediaPool) : Prop extends OwnEntries p where
  alternate : (false :: said before p).IsChain (· ≠ ·)
  last : (false :: said before p).getLast? = some !p.degradedKeys.isEmpty
  held : ∀ {key}, key ∈ p.degradedKeys → but ≠ some key →
    ∃ entry, p.pool.lookup key = some entry ∧
      (entry.state.isUp → (key, entry.generation) ∈ links)
  unset : p.own = none → p.ownLost = false → p.ownEntry = none

section
variable {p q : MediaPool} {links : List (String × ℕ)} {before : List PoolEvent}
  {but : Option String} {key : String} {entry : ManagedConnection}

theorem said_of_out (out : q.out.filterMap impairmentOf = p.out.filterMap impairmentOf) :
    said before q = said before p := by
  rw [said, said, List.filterMap_append, List.filterMap_append, out]

theorem said_taken : said (before ++ p.out) p.take.1 = said before p := by
  rw [said, said, MediaPool.take, List.append_nil]

theorem markDegraded_eq (fresh : key ∉ p.degradedKeys) : p.markDegraded key =
    { p with
      degradedKeys := key :: p.degradedKeys
      out := p.out ++ (if p.degradedKeys.isEmpty then [.degraded true] else []) ++
        [.connectionState key .reconnecting] } := by
  have fresh : ¬ p.degradedKeys.contains key := fun there => fresh (List.contains_iff_mem.mp there)
  rw [MediaPool.markDegraded, if_neg fresh]
  cases p.degradedKeys.isEmpty <;> simp [MediaPool.emit]

theorem markDegraded_self (there : key ∈ p.degradedKeys) : p.markDegraded key = p :=
  if_pos (List.contains_iff_mem.mpr there)

theorem clearDegraded_eq (there : key ∈ p.degradedKeys) : p.clearDegraded key =
    { p with
      degradedKeys := p.degradedKeys.filter (· != key)
      out := p.out ++ (if (p.degradedKeys.filter (· != key)).isEmpty then [.degraded false] else [])
        ++ [.connectionState key .connected] } := by
  rw [MediaPool.clearDegraded, if_pos (List.contains_iff_mem.mpr there)]
  cases clear : (p.degradedKeys.filter (· != key)).isEmpty <;> simp [clear, MediaPool.emit]

theorem clearDegraded_self (absent : key ∉ p.degradedKeys) : p.clearDegraded key = p :=
  if_neg fun there => absent (List.contains_iff_mem.mp there)

theorem mem_clearDegraded {other : String} :
    other ∈ (p.clearDegraded key).degradedKeys ↔ other ∈ p.degradedKeys ∧ other ≠ key := by
  by_cases there : key ∈ p.degradedKeys
  · simp [clearDegraded_eq there]
  · rw [clearDegraded_self there]
    exact ⟨fun is_there => ⟨is_there, fun same => there (same ▸ is_there)⟩, And.left⟩

theorem mem_markDegraded {other : String} :
    other ∈ (p.markDegraded key).degradedKeys ↔ other ∈ p.degradedKeys ∨ other = key := by
  by_cases there : key ∈ p.degradedKeys
  · rw [markDegraded_self there]
    exact ⟨.inl, fun is_there => is_there.elim id (· ▸ there)⟩
  · simp [markDegraded_eq there, or_comm]

theorem said_markDegraded (key : String) :
    said before (p.markDegraded key) = said before p ++ change p (p.markDegraded key) := by
  by_cases there : key ∈ p.degradedKeys
  · simp [markDegraded_self there, change]
  · rw [markDegraded_eq there]
    cases clear : p.degradedKeys.isEmpty <;> simp [said, change, clear, impairmentOf]

theorem said_clearDegraded (key : String) :
    said before (p.clearDegraded key) = said before p ++ change p (p.clearDegraded key) := by
  by_cases there : key ∈ p.degradedKeys
  · have impaired : p.degradedKeys.isEmpty = false :=
      List.isEmpty_eq_false_iff.mpr (List.ne_nil_of_mem there)
    rw [clearDegraded_eq there, change, impaired]
    cases (p.degradedKeys.filter (· != key)).isEmpty <;>
      simp only [said, impairmentOf] <;> simp [impairmentOf]
  · simp [clearDegraded_self there, change]

/-- What is reported where it changes alternates. -/
theorem alternates {reported : List Bool} {was : Bool} (is_ : Bool)
    (alternate : (false :: reported).IsChain (· ≠ ·))
    (last : (false :: reported).getLast? = some was) :
    let reported := reported ++ if is_ = was then [] else [is_]
    (false :: reported).IsChain (· ≠ ·) ∧ (false :: reported).getLast? = some is_ := by
  intro after
  by_cases same : is_ = was
  · rw [show after = reported by simp [after, same], same]
    exact ⟨alternate, last⟩
  · rw [show false :: after = (false :: reported) ++ [is_] by simp [after, same]]
    refine ⟨List.isChain_append.mpr ⟨alternate, .singleton is_, ?_⟩, List.getLast?_concat⟩
    intro x is_last y first
    rw [Option.mem_def, last] at is_last
    cases is_last
    cases first
    exact Ne.symm same

namespace Impaired

theorem changed (h : Impaired links before but p)
    (told : said before q = said before p ++ change p q) :
    (false :: said before q).IsChain (· ≠ ·) ∧
      (false :: said before q).getLast? = some !q.degradedKeys.isEmpty := by
  have after := alternates (!q.degradedKeys.isEmpty) h.alternate h.last
  rw [told, change]
  simpa only [Bool.not_inj_iff] using after

theorem rest (h : Impaired links before but p) (pool : q.pool = p.pool)
    (ownKey : q.ownConnectionKey = p.ownConnectionKey) (degraded : q.degradedKeys = p.degradedKeys)
    (out : q.out.filterMap impairmentOf = p.out.filterMap impairmentOf)
    (unset : q.own = none → q.ownLost = false → p.own = none ∧ p.ownLost = false) :
    Impaired links before but q where
  toOwnEntries := h.toOwnEntries.of_same pool ownKey
  alternate := by
    rw [said_of_out out]
    exact h.alternate
  last := by rw [said_of_out out, degraded, h.last]
  held impaired apart := pool ▸ h.held (degraded ▸ impaired) apart
  unset none_ unlost := by
    rw [MediaPool.ownEntry, ownKey, pool]
    exact h.unset (unset none_ unlost).1 (unset none_ unlost).2

theorem calm (h : Impaired links before but p) (calm : Calm p q) : Impaired links before but q :=
  h.rest calm.beside.pool calm.beside.ownKey calm.degraded calm.said fun none_ unlost =>
    ⟨(congrArg Frame.own calm.frame).symm.trans none_,
      (congrArg Frame.ownLost calm.frame).symm.trans unlost⟩

theorem spawn (h : Impaired links before but p) (task : Spawned) :
    Impaired links before but (p.spawn task) :=
  h.rest rfl rfl rfl rfl fun none_ unlost => ⟨none_, unlost⟩

theorem emit (h : Impaired links before but p) {event : PoolEvent}
    (other : impairmentOf event = none) : Impaired links before but (p.emit event) :=
  h.rest rfl rfl rfl (by simp [MediaPool.emit, other]) fun none_ unlost => ⟨none_, unlost⟩

theorem weaken (h : Impaired links before none p) : Impaired links before but p where
  toOwnEntries := h.toOwnEntries
  alternate := h.alternate
  last := h.last
  held impaired _ := h.held impaired nofun
  unset := h.unset

theorem settle (h : Impaired links before (some key) p) (found : p.pool.lookup key = some entry)
    (down : entry.state.isUp → (key, entry.generation) ∈ links) :
    Impaired links before none p where
  toOwnEntries := h.toOwnEntries
  alternate := h.alternate
  last := h.last
  held {other} impaired _ := by
    by_cases same : key = other
    · subst same
      exact ⟨entry, found, down⟩
    · exact h.held impaired fun is_ => same (Option.some.inj is_)
  unset := h.unset

theorem mark (h : Impaired links before (some key) p) :
    Impaired links before (some key) (p.markDegraded key) := by
  have beside := beside_markDegraded (p := p) key
  obtain ⟨alternate, last⟩ := h.changed (said_markDegraded key)
  refine ⟨h.toOwnEntries.of_same beside.pool beside.ownKey, alternate, last,
    fun {other} impaired apart => ?_, fun none_ unlost => ?_⟩
  · rw [beside.pool]
    refine h.held ((mem_markDegraded.mp impaired).resolve_right ?_) apart
    rintro rfl
    exact apart rfl
  · rw [MediaPool.ownEntry, beside.ownKey, beside.pool]
    exact h.unset ((congrArg Frame.own beside.frame).symm.trans none_)
      ((congrArg Frame.ownLost beside.frame).symm.trans unlost)

theorem clear (h : Impaired links before (some key) p) :
    Impaired links before none (p.clearDegraded key) := by
  have beside := beside_clearDegraded (p := p) key
  obtain ⟨alternate, last⟩ := h.changed (said_clearDegraded key)
  refine ⟨h.toOwnEntries.of_same beside.pool beside.ownKey, alternate, last,
    fun {other} impaired _ => ?_, fun none_ unlost => ?_⟩
  · rw [beside.pool]
    obtain ⟨impaired, differs⟩ := mem_clearDegraded.mp impaired
    exact h.held impaired fun same => differs (Option.some.inj same).symm
  · rw [MediaPool.ownEntry, beside.ownKey, beside.pool]
    exact h.unset ((congrArg Frame.own beside.frame).symm.trans none_)
      ((congrArg Frame.ownLost beside.frame).symm.trans unlost)

theorem setEntry (h : Impaired links before but p) (kept : OwnEntries (p.setEntry key entry))
    (unset : p.ownConnectionKey = some key → p.own = none → p.ownLost = false → False)
    (free : but = some key ∨ entry.state.isUp = false) :
    Impaired links before but (p.setEntry key entry) where
  toOwnEntries := kept
  alternate := h.alternate
  last := h.last
  held {other} impaired apart := by
    by_cases same : other = key
    · subst same
      refine ⟨entry, AList.lookup_insert p.pool, fun up => ?_⟩
      have down := free.resolve_left apart
      rw [down] at up
      cases up
    · obtain ⟨entry, found, down⟩ := h.held impaired apart
      exact ⟨entry, (AList.lookup_insert_ne same).trans found, down⟩
  unset none_ unlost := by
    rw [ownEntry_setEntry fun is_key => unset is_key none_ unlost]
    exact h.unset none_ unlost

theorem setState (h : Impaired links before but p) {after : ManagedConnection}
    (found : p.pool.lookup key = some entry) (own : after.isOwn = entry.isOwn)
    (backend : after.backend = entry.backend)
    (free : but = some key ∨ after.state.isUp = false) :
    Impaired links before but (p.setEntry key after) := by
  refine h.setEntry (h.toOwnEntries.setState found own backend) (fun is_key none_ unlost => ?_) free
  have is_none := h.unset none_ unlost
  rw [MediaPool.ownEntry, is_key, Option.bind_some, found] at is_none
  cases is_none

theorem setDown (h : Impaired links before (some key) p) {after : ManagedConnection}
    (found : p.pool.lookup key = some entry) (own : after.isOwn = entry.isOwn)
    (backend : after.backend = entry.backend) (down : after.state.isUp = false) :
    Impaired links before none (p.setEntry key after) := by
  refine (h.setState found own backend (.inr down)).settle (AList.lookup_insert p.pool) fun up => ?_
  rw [down] at up
  cases up

theorem removeEntry (h : Impaired links before (some key) p) :
    Impaired links before (some key) (p.removeEntry key) where
  toOwnEntries := h.toOwnEntries.removeEntry key
  alternate := h.alternate
  last := h.last
  held {other} impaired apart := by
    obtain ⟨entry, found, down⟩ := h.held impaired apart
    have differs : other ≠ key := fun same => apart (congrArg some same.symm)
    exact ⟨entry, (AList.lookup_erase_ne differs).trans found, down⟩
  unset none_ unlost := by
    by_cases is_key : p.ownConnectionKey = some key
    · rw [MediaPool.ownEntry, show (p.removeEntry key).ownConnectionKey = some key from is_key]
      exact AList.lookup_erase key p.pool
    · rw [ownEntry_removeEntry is_key]
      exact h.unset none_ unlost

theorem startConnect (h : Impaired links before but p) (key : String) (attempt : ℕ) :
    Impaired links before but (p.startConnect key attempt) := by
  unfold MediaPool.startConnect
  split
  · exact h
  · next entry found =>
      split_ifs
      · exact h
      · have waits : Impaired links before but
            (p.setEntry key { entry with state := .connecting attempt }) :=
          h.setState found rfl rfl (.inr rfl)
        exact waits.spawn _

theorem openPeer (h : Impaired links before but p) (key : String) (backend : MediaTransport)
    (members : List String) : Impaired links before but (p.openPeer key backend members) := by
  unfold MediaPool.openPeer
  split_ifs with is_own
  · exact h
  · have kept := (aside_setPeer
      { backend := some backend, members := members, isOwn := false, state := .connecting 0
        generation := 0, idleGeneration := 0 } is_own rfl).entries h.toOwnEntries
    exact (h.setEntry kept (fun is_key => absurd is_key is_own) (.inr rfl)).startConnect key 0

theorem regroup (h : Impaired links before but p) : Impaired links before but p.regroup where
  toOwnEntries := aside_regroup.entries h.toOwnEntries
  alternate := h.alternate
  last := h.last
  held {key} impaired apart := by
    obtain ⟨entry, found, down⟩ := h.held impaired apart
    rw [lookup_regroup, found]
    exact ⟨_, rfl, down⟩
  unset none_ unlost := by
    have is_none := h.unset none_ unlost
    rw [MediaPool.ownEntry] at is_none ⊢
    cases is_key : p.ownConnectionKey with
    | none => rw [show p.regroup.ownConnectionKey = none from is_key, Option.bind_none]
    | some key =>
        rw [is_key, Option.bind_some] at is_none
        rw [show p.regroup.ownConnectionKey = some key from is_key, Option.bind_some,
          lookup_regroup, is_none, Option.map_none]

theorem reconcilePool (h : Impaired links before but p) :
    Impaired links before but p.reconcilePool := by
  unfold MediaPool.reconcilePool
  extract_lets missing
  have regrouped := h.regroup
  generalize p.regroup = q at regrouped
  clear_value missing
  induction missing generalizing q with
  | nil => exact regrouped
  | cons e rest ih => exact ih _ (regrouped.openPeer e.1 e.2.1 e.2.2)

end Impaired

theorem lookup_openPeer {other : String} {backend : MediaTransport} {members : List String}
    (found : (p.openPeer key backend members).pool.lookup other = some entry)
    (up : entry.state.isUp) : p.pool.lookup other = some entry := by
  by_cases is_own : p.ownConnectionKey = some key
  · rwa [MediaPool.openPeer, if_pos is_own] at found
  · rw [openPeer_eq key backend members is_own] at found
    obtain ⟨rfl, rfl⟩ | ⟨-, found⟩ := of_lookup_insert found
    · cases up
    · obtain ⟨rfl, rfl⟩ | ⟨-, found⟩ := of_lookup_insert found
      · cases up
      · exact found

theorem isSome_of_reconcilePool (found : p.reconcilePool.pool.lookup key = some entry)
    (up : entry.state.isUp) : (p.pool.lookup key).isSome := by
  unfold MediaPool.reconcilePool at found
  extract_lets missing at found
  have regrouped (entry : ManagedConnection) (there : p.regroup.pool.lookup key = some entry) :
      (p.pool.lookup key).isSome := by
    rw [lookup_regroup, Option.map_eq_some_iff] at there
    obtain ⟨_, was, -⟩ := there
    exact Option.isSome_of_mem was
  refine regrouped entry ?_
  generalize p.regroup = q at found
  clear_value missing
  induction missing generalizing q with
  | nil => exact found
  | cons e rest ih => exact lookup_openPeer (ih _ found) up

namespace Impaired

theorem applySnapshot (h : Impaired links before but p) (snapshot : List JoinedMembership) :
    Impaired links before but (p.applySnapshot snapshot) := by
  unfold MediaPool.applySnapshot
  have joined := h.calm (calm_joined snapshot)
  refine reconcilePool ?_
  exact joined.rest rfl rfl rfl rfl fun none_ unlost => ⟨none_, unlost⟩

theorem retryConnect (h : Impaired links before none p) (key : String) (attempt : ℕ) :
    Impaired links before none (p.retryConnect key attempt) := by
  unfold MediaPool.retryConnect
  split
  · exact h
  · split_ifs
    · exact h
    · exact h.weaken.removeEntry.clear
    · exact h.startConnect key attempt

theorem closeIfIdle (h : Impaired links before none p) (key : String) (idleGeneration : ℕ) :
    Impaired links before none (p.closeIfIdle key idleGeneration) := by
  unfold MediaPool.closeIfIdle
  split_ifs
  · extract_lets dropped closed
    have removed : Impaired links before (some key) dropped :=
      (h.calm (calm_dropped key)).weaken.removeEntry
    refine clear (?_ : Impaired links before (some key) closed)
    unfold closed
    split
    · exact removed.calm (calm_closeEntry _)
    · exact removed
  · exact h

theorem startOwnLoss (h : Impaired links before (some key) p)
    (is_key : p.ownConnectionKey = some key) (now : ℕ) :
    Impaired links before (some key) (p.startOwnLoss now) := by
  unfold MediaPool.startOwnLoss
  split
  · next key' own is_key' _ =>
      cases is_key.symm.trans is_key'
      split_ifs
      · exact h
      · extract_lets epoch timed budgeted armed
        have toTimed : Impaired links before (some key) timed := h.rest rfl rfl rfl rfl nofun
        have toBudgeted : Impaired links before (some key) budgeted := toTimed.spawn _
        refine mark (?_ : Impaired links before (some key) armed)
        unfold armed
        split_ifs
        · exact toBudgeted.spawn _
        · exact toBudgeted
  · exact h

theorem endOwnLoss (h : Impaired links before but p) : Impaired links before but p.endOwnLoss := by
  unfold MediaPool.endOwnLoss
  split
  · exact h
  · dsimp only
    split_ifs
    · exact h.rest rfl rfl rfl rfl nofun
    · exact h.rest rfl rfl rfl rfl fun none_ unlost => ⟨none_, unlost⟩

/-- An attempt at our own focus takes the place of what was there. -/
theorem attempted (h : Impaired links before (some key) p)
    (is_key : p.ownConnectionKey = some key) {own : OwnRecovery} (is_own : p.own = some own)
    (found : p.pool.lookup key = some entry) (attempt : ℕ) :
    Impaired links before none (p.spawnOwnAttempt attempt) := by
  unfold MediaPool.spawnOwnAttempt
  split
  · next key' own' is_key' _ =>
      cases is_key.symm.trans is_key'
      extract_lets q r
      have asked : Impaired links before (some key) q := h.rest rfl rfl rfl rfl nofun
      refine spawn (?_ : Impaired links before none r) _
      unfold r
      split
      · next found => exact asked.setDown found rfl rfl rfl
      · next none_ => cases found.symm.trans none_
  · next none_ => exact absurd is_own (none_ key own is_key)

theorem lose (h : Impaired links before (some key) p) (is_key : p.ownConnectionKey = some key)
    {own : OwnRecovery} (is_own : p.own = some own) (found : p.pool.lookup key = some entry)
    (now attempt : ℕ) :
    Impaired links before none ((p.startOwnLoss now).spawnOwnAttempt attempt) := by
  have quiet := PoolMoves.quiet_startOwnLoss (p := p) now
  have begins := congrArg OwnSide.own (side_startOwnLoss now is_key is_own)
  exact (h.startOwnLoss is_key now).attempted (quiet.ownKey.trans is_key) begins
    (quiet.pool ▸ found) attempt

theorem spawnOwnAttempt (h : Impaired links before none p) (attempt : ℕ) :
    Impaired links before none (p.spawnOwnAttempt attempt) := by
  unfold MediaPool.spawnOwnAttempt
  split
  · extract_lets q r
    have asked : Impaired links before none q := h.rest rfl rfl rfl rfl nofun
    refine spawn (?_ : Impaired links before none r) _
    unfold r
    split
    · next found => exact asked.setState found rfl rfl (.inr rfl)
    · exact asked
  · exact h

theorem giveUpOwn (h : Impaired links before none p) (reason : OwnConnectionLoss)
    (message : String) : Impaired links before none (p.giveUpOwn reason message) := by
  unfold MediaPool.giveUpOwn
  split
  · exact h
  · next key _ =>
      extract_lets q dropped cleared
      have unaimed : Impaired links before none q :=
        h.rest rfl rfl rfl rfl fun none_ unlost => ⟨none_, unlost⟩
      have removed : Impaired links before (some key) dropped :=
        (unaimed.calm (calm_dropped key)).weaken.removeEntry
      have lost : Impaired links before (some key) { dropped with own := none, ownLost := true } :=
        removed.rest rfl rfl rfl rfl nofun
      exact (lost.clear.emit rfl).emit rfl

theorem giveUpOwnBudget (h : Impaired links before none p) :
    Impaired links before none p.giveUpOwnBudget := by
  unfold MediaPool.giveUpOwnBudget
  split
  · exact h
  · exact h.giveUpOwn _ _

theorem ownBackoff (h : Impaired links before none p) (attempt now : ℕ) :
    Impaired links before none (p.ownBackoff attempt now) := by
  unfold MediaPool.ownBackoff
  split
  · exact h
  · extract_lets q left delay
    refine spawn (?_ : Impaired links before none q) _
    unfold q
    split
    · next entry found => exact h.setState found rfl rfl (.inr rfl)
    · exact h

theorem installed (h : Impaired links before (some key) p) (found : p.pool.lookup key = some entry)
    (connection : ℕ) : Impaired links before (some key) (p.installed key entry connection) := by
  unfold MediaPool.installed
  extract_lets generation numbered set
  have toNumbered : Impaired links before (some key) numbered :=
    h.rest rfl rfl rfl rfl fun none_ unlost => ⟨none_, unlost⟩
  have toSet : Impaired links before (some key) set :=
    toNumbered.setState found rfl rfl (.inl rfl)
  exact toSet.spawn _

theorem takenOver (h : Impaired links before none p) {ownKey target : String}
    (is_key : p.ownConnectionKey = some ownKey) (unimpaired : target ∉ p.degradedKeys)
    (own : entry.isOwn = true) (backend : entry.backend = none) (recovery : OwnRecovery) :
    Impaired links before (some ownKey) { (p.removeEntry ownKey).setEntry target entry with
      ownConnectionKey := some target, own := some recovery } where
  toOwnEntries := (h.toOwnEntries.taken is_key target own backend).of_same rfl rfl
  alternate := h.alternate
  last := h.last
  held {key} impaired apart := by
    obtain ⟨entry, was, down⟩ := h.held impaired nofun
    have other : key ≠ target := fun same => unimpaired (same ▸ impaired)
    have left : key ≠ ownKey := fun same => apart (congrArg some same.symm)
    exact ⟨entry, (AList.lookup_insert_ne other).trans ((AList.lookup_erase_ne left).trans was),
      down⟩
  unset := nofun

/-- Our media moves to a focus that is not impaired; the one it leaves is opened again for
whoever is there, or has no entry left. -/
theorem movedTo (h : Impaired links before none p) {ownKey target : String} (own : OwnRecovery)
    (transport : RtcTransport) (is_key : p.ownConnectionKey = some ownKey)
    (differs : target ≠ ownKey) (found : p.pool.lookup target = some entry)
    (unimpaired : target ∉ p.degradedKeys) :
    Impaired links before none (p.movedTo ownKey target own transport) := by
  unfold MediaPool.movedTo
  extract_lets up gone taken renamed told opened
  have stays : gone.pool.lookup target = some entry := (AList.lookup_erase_ne differs).trans found
  have entered : taken = gone.setEntry target { entry with
      isOwn := true, backend := none, state := .up own.connection } := by
    unfold taken
    rw [stays]
  have named : Impaired links before (some ownKey)
      { taken with ownConnectionKey := some target } := by
    rw [entered]
    have over_ : Impaired links before (some ownKey) { (p.removeEntry ownKey).setEntry target
        { entry with isOwn := true, backend := none, state := .up own.connection } with
        ownConnectionKey := some target, own := some { own with everUp := true } } :=
      h.takenOver is_key unimpaired rfl rfl _
    exact over_.rest rfl rfl rfl rfl nofun
  have toTold : Impaired links before (some ownKey) told := (named.endOwnLoss.emit rfl).emit rfl
  have reconciled : Impaired links before (some ownKey) opened := toTold.reconcilePool
  split_ifs with closed
  · exact reconciled.clear
  · obtain ⟨again, reopened⟩ := Option.ne_none_iff_exists'.mp
      fun none_ => closed (Option.isNone_iff_eq_none.mpr none_)
    refine reconciled.settle reopened fun is_up => ?_
    have stayed := isSome_of_reconcilePool reopened is_up
    obtain ⟨after, choice, ended⟩ := endOwnLoss_eq { taken with ownConnectionKey := some target }
    have isPool : told.pool = gone.pool.insert target { entry with
        isOwn := true, backend := none, state := .up own.connection } := by
      unfold told renamed
      rw [ended, entered]
      rfl
    have absent : gone.pool.lookup ownKey = none := AList.lookup_erase ownKey p.pool
    rw [isPool, AList.lookup_insert_ne differs.symm, absent] at stayed
    cases stayed

theorem tryFallback (h : Impaired links before none p) (now : ℕ)
    (takeOver : Except TransportError Unit) :
    Impaired links before none (p.tryFallback now takeOver) := by
  have aims (may : Bool) (choice : Option String) : Impaired links before none
      { p with sfuFallback := may, fallbackTarget := choice } :=
    h.rest rfl rfl rfl rfl fun none_ unlost => ⟨none_, unlost⟩
  unfold MediaPool.tryFallback
  split
  · exact h
  · next ownKey target choice =>
      obtain ⟨is_key, differs, -, -⟩ := fallbackChoice_spec choice
      split_ifs with carries
      · unfold MediaPool.fallBack
        split
        · next own transport entry _ _ found =>
            rw [found, Option.any_some, MediaPool.carries, Bool.and_eq_true, Bool.not_eq_true',
              ← Bool.not_eq_true, List.contains_iff_mem] at carries
            split_ifs
            · split
              · exact aims false none
              · exact h.movedTo own transport is_key differs found carries.2
            · exact h
        · exact h
      · exact aims p.sfuFallback (some target)

theorem peerUp (h : Impaired links before none p) (key : String) (now : ℕ)
    (takeOver : Except TransportError Unit) :
    Impaired links before none (p.peerUp key now takeOver) := by
  unfold MediaPool.peerUp
  split_ifs
  · exact h
  · exact h.tryFallback now takeOver

theorem connectFinished (h : Impaired links before none p) (key : String) (attempt : ℕ)
    (result : Except TransportError ℕ) (now : ℕ) (takeOver : Except TransportError Unit) :
    Impaired links before none (p.connectFinished key attempt result now takeOver) := by
  unfold MediaPool.connectFinished
  split
  · exact h.calm (calm_closeStray result)
  · next entry found =>
      split_ifs
      · exact h.calm (calm_closeStray result)
      · exact h.weaken.removeEntry.clear.calm (calm_closeStray result)
      · cases result with
        | ok connection => exact (h.weaken.installed found connection).clear.peerUp key now takeOver
        | error error =>
            have marked : Impaired links before (some key) (p.markDegraded key) := h.weaken.mark
            have there := (beside_markDegraded (p := p) key).pool ▸ found
            refine spawn ?_ _
            exact marked.setDown there rfl rfl rfl

/-- A connection that was up is gone. -/
theorem connectionDown (h : Impaired links before none p) (key : String) (generation : ℕ)
    (message : String) (now : ℕ) :
    Impaired links before none (p.connectionDown key generation message now) := by
  have dropped := h.calm (calm_dropped key)
  have retired := dropped.calm (calm_retireTracks key)
  have marked : Impaired links before (some key) _ := retired.weaken.mark
  have beside := ((calm_dropped (p := p) key).beside.trans (calm_retireTracks key).beside).trans
    (beside_markDegraded key)
  unfold MediaPool.connectionDown
  split
  · exact h
  · next entry found =>
      have there := beside.pool ▸ found
      split_ifs with replaced unrecovered is_own empty
      · exact h
      · exact dropped.giveUpOwn _ _
      · have is_key := (marked.own there).mp is_own
        rw [Bool.and_eq_true, not_and, Option.isNone_iff_eq_none] at unrecovered
        obtain ⟨own, recovers⟩ := Option.ne_none_iff_exists'.mp (unrecovered is_own)
        exact marked.lose is_key ((congrArg Frame.own beside.frame).trans recovers) there now 0
      · exact marked.removeEntry.clear
      · refine spawn ?_ _
        exact marked.setDown there rfl rfl rfl

theorem reconnecting (h : Impaired links before none p) {generation : ℕ}
    (current : p.isCurrent key generation) (lost : (key, generation) ∈ links) (now : ℕ) :
    Impaired links before none (p.reconnecting key now) := by
  obtain ⟨entry, found, numbered⟩ := (Option.any_eq_true _ _).mp current
  have marked : Impaired links before (some key) (p.markDegraded key) := h.weaken.mark
  have there := (beside_markDegraded (p := p) key).pool ▸ found
  have down : entry.state.isUp → (key, entry.generation) ∈ links := fun _ =>
    beq_iff_eq.mp numbered ▸ lost
  unfold MediaPool.reconnecting
  dsimp only
  split_ifs with is_key
  · have quiet := PoolMoves.quiet_startOwnLoss (p := p.markDegraded key) now
    exact (marked.startOwnLoss is_key now).settle (quiet.pool ▸ there) down
  · exact marked.settle there down

theorem reconnected (h : Impaired links before (some key) p) (now : ℕ)
    (takeOver : Except TransportError Unit) :
    Impaired links before none (p.reconnected key now takeOver) := by
  unfold MediaPool.reconnected
  extract_lets ended
  refine calm (peerUp (clear (?_ : Impaired links before (some key) ended)) key now takeOver)
    (calm_reapplyConnectionConstraints key)
  unfold ended
  split_ifs
  · exact h.endOwnLoss
  · exact h

theorem ownConnectFinished (h : Impaired links before none p) (attempt : ℕ)
    (result : Except TransportError Unit) (now : ℕ) :
    Impaired links before none (p.ownConnectFinished attempt result now) := by
  unfold MediaPool.ownConnectFinished
  split
  · next key own is_key _ =>
      split
      · cases result with
        | ok =>
            dsimp only
            split_ifs
            · exact h.spawn _
            · exact h
        | error error => exact h
      · next entry waits =>
          have found := (Option.filter_eq_some_iff.mp waits).1
          cases result with
          | ok =>
              dsimp only
              have everUp : Impaired links before (some key)
                  { p with own := some { own with everUp := true } } :=
                h.weaken.rest rfl rfl rfl rfl nofun
              exact (everUp.installed found own.connection).endOwnLoss.clear.calm
                (calm_reapplyConnectionConstraints key)
          | error error =>
              have refetches : Impaired links before none { p with own := some { own with
                  tokenRefetched := true, refetchNext := true } } := h.rest rfl rfl rfl rfl nofun
              dsimp only
              split_ifs
              · cases error with
                | tokenRejected message | refused message => exact h.giveUpOwn _ _
                | unsupported | connect | closed => exact h.giveUpOwnBudget
              all_goals
                cases error with
                | tokenRejected message =>
                    first
                    | exact h.giveUpOwn _ _
                    | exact refetches.ownBackoff _ now
                | refused message => exact h.giveUpOwn _ _
                | unsupported | connect | closed => exact h.ownBackoff _ now
  · exact h

theorem ownBudget (h : Impaired links before none p) (epoch : ℕ) :
    Impaired links before none (p.ownBudget epoch) := by
  unfold MediaPool.ownBudget
  split_ifs
  · extract_lets q attempted
    have spent : Impaired links before none q :=
      h.rest rfl rfl rfl rfl fun none_ unlost => ⟨Option.map_eq_none_iff.mp none_, unlost⟩
    refine spawn (?_ : Impaired links before none attempted) _
    unfold attempted
    split
    · exact spent.spawnOwnAttempt _
    · exact spent
  · exact h

theorem unimpaired (h : Impaired links before none p) (is_key : p.ownConnectionKey = some key)
    (none_ : p.own = none) (unlost : p.ownLost = false) : key ∉ p.degradedKeys := by
  intro impaired
  obtain ⟨entry, found, -⟩ := h.held impaired nofun
  have is_none := h.unset none_ unlost
  rw [MediaPool.ownEntry, is_key, Option.bind_some, found] at is_none
  cases is_none

theorem settleUnimpaired (h : Impaired links before (some key) p) (clear : key ∉ p.degradedKeys) :
    Impaired links before none p where
  toOwnEntries := h.toOwnEntries
  alternate := h.alternate
  last := h.last
  held impaired _ := h.held impaired fun same => clear (Option.some.inj same ▸ impaired)
  unset := h.unset

theorem adoptOwnConnection (h : Impaired links before none p)
    (is_key : p.ownConnectionKey = some key) (none_ : p.own = none) (unlost : p.ownLost = false)
    (connection : ℕ) : Impaired links before none (p.adoptOwnConnection key connection) := by
  have clear := h.unimpaired is_key none_ unlost
  unfold MediaPool.adoptOwnConnection
  extract_lets generation q
  have handed : Impaired links before (some key) q := h.weaken.rest rfl rfl rfl rfl nofun
  refine spawn (settleUnimpaired (handed.setEntry ?_ nofun (.inl rfl)) clear) _
  exact handed.toOwnEntries.place is_key rfl rfl

theorem connectOwn (h : Impaired links before none p) (is_key : p.ownConnectionKey = some key)
    (connection now : ℕ) : Impaired links before none (p.connectOwn key connection now) := by
  unfold MediaPool.connectOwn
  extract_lets q placed
  have handed : Impaired links before (some key) q := h.weaken.rest rfl rfl rfl rfl nofun
  have waits : Impaired links before (some key) placed :=
    handed.setEntry (handed.toOwnEntries.place is_key rfl rfl) nofun (.inl rfl)
  exact waits.lose is_key rfl (AList.lookup_insert q.pool) now 0

theorem relink (h : Impaired links before none p) {links' : List (String × ℕ)}
    (kept : ∀ {other entry}, but ≠ some other → p.pool.lookup other = some entry →
      (other, entry.generation) ∈ links → (other, entry.generation) ∈ links') :
    Impaired links' before but p where
  toOwnEntries := h.toOwnEntries
  alternate := h.alternate
  last := h.last
  held {other} impaired apart := by
    obtain ⟨entry, found, down⟩ := h.held impaired nofun
    exact ⟨entry, found, fun up => kept apart found (down up)⟩
  unset := h.unset

theorem happened (h : Impaired links before none p) (key : String) (generation : ℕ)
    (event : ConnectionEvent) (now : ℕ) (takeOver : Except TransportError Unit) :
    Impaired (linksAfter links (.handle (.connection key generation event))) before none
      (p.handle (.connection key generation event) now takeOver) := by
  unfold MediaPool.handle
  cases event with
  | reconnecting =>
      have more : Impaired ((key, generation) :: links) before none p :=
        h.relink fun _ _ there => .tail _ there
      dsimp only
      split_ifs with current
      · exact more.reconnecting current (.head _) now
      · exact more
  | reconnected =>
      dsimp only
      split_ifs with current
      · refine reconnected (h.relink fun {other entry} apart _ there => ?_) now takeOver
        refine List.mem_filter.mpr ⟨there, bne_iff_ne.mpr fun same => ?_⟩
        exact apart (congrArg some (Prod.mk.inj same).1.symm)
      · refine h.relink fun {other entry} _ found there => ?_
        refine List.mem_filter.mpr ⟨there, bne_iff_ne.mpr fun same => current ?_⟩
        obtain ⟨rfl, numbered⟩ := Prod.mk.inj same
        exact (Option.any_eq_true _ _).mpr ⟨entry, found, beq_iff_eq.mpr numbered⟩
  | closed message =>
      dsimp only
      split_ifs
      · exact h.connectionDown key _ message now
      · exact h
  | _ =>
      dsimp only
      split_ifs
      · exact h.calm (calm_handleConnectionEvent rfl key now takeOver)
      · exact h

theorem handle (h : Impaired links before none p) (message : Message) (now : ℕ)
    (takeOver : Except TransportError Unit) :
    Impaired (linksAfter links (.handle message)) before none (p.handle message now takeOver) := by
  cases message with
  | connection key generation event => exact h.happened key generation event now takeOver
  | connectionEnded key generation => exact h.connectionDown key generation _ now
  | connectFinished key attempt result => exact h.connectFinished key attempt result now takeOver
  | retryConnect key attempt => exact h.retryConnect key attempt
  | closeIfIdle key idleGeneration => exact h.closeIfIdle key idleGeneration
  | applyConstraints memberId kind generation =>
      unfold MediaPool.handle
      dsimp only
      split_ifs
      · exact h.calm (calm_applyConstraintsNow memberId kind)
      · exact h
  | ownConnectFinished attempt result => exact h.ownConnectFinished attempt result now
  | ownRetry attempt =>
      have tried := h.tryFallback now takeOver
      unfold MediaPool.handle MediaPool.ownRetry
      dsimp only
      split_ifs
      · exact tried.spawnOwnAttempt attempt
      · exact tried
  | ownBudget epoch => exact h.ownBudget epoch
  | ownFinalAttemptExpired epoch =>
      unfold MediaPool.handle
      dsimp only
      split_ifs
      · exact h.giveUpOwnBudget
      · exact h
  | ownFallback epoch =>
      unfold MediaPool.handle
      dsimp only
      split_ifs
      · exact h.tryFallback now takeOver
      · exact h

/-- No call but the last leaves a focus impaired that has no entry. -/
theorem perform (h : Impaired links before none p) {input : Input}
    (may : allowed p input.call ∨ ∃ message, input.call = .handle message)
    (open_ : input.call ≠ .close) :
    Impaired (linksAfter links input.call) before none (p.perform input) := by
  obtain ⟨call, now, takeOver⟩ := input
  have handed {key : String} {connection : ℕ} (is_call : call = .connectOwn key connection ∨
      call = .adoptOwnConnection key connection) :
      p.ownConnectionKey = some key ∧ p.own = none ∧ p.ownLost = false := by
    obtain may | ⟨message, other⟩ := may
    · obtain rfl | rfl := is_call <;> simp [allowed] at may <;> exact ⟨may.2, may.1.1.1, may.1.1.2⟩
    · obtain rfl | rfl := is_call <;> cases other
  cases call with
  | handle message => exact h.handle message now takeOver
  | applySnapshot snapshot => exact h.applySnapshot snapshot
  | adoptOwnConnection key connection =>
      obtain ⟨is_key, none_, unlost⟩ := handed (.inr rfl)
      exact h.adoptOwnConnection is_key none_ unlost connection
  | connectOwn key connection => exact h.connectOwn (handed (.inl rfl)).1 connection now
  | keyImported identity keyIndex => exact h.calm (calm_keyImported identity keyIndex)
  | setConstraints memberId kind constraints =>
      exact h.calm (calm_setConstraints memberId kind constraints)
  | setSignallingReachable reachable =>
      have set : Impaired links before none { p with signallingReachable := reachable } :=
        h.rest rfl rfl rfl rfl fun none_ unlost => ⟨none_, unlost⟩
      change Impaired links before none (p.setSignallingReachable reachable now takeOver)
      unfold MediaPool.setSignallingReachable
      dsimp only
      split_ifs
      · exact set.tryFallback now takeOver
      · exact set
  | close => exact absurd rfl open_

theorem taken (h : Impaired links before none p) :
    Impaired links (before ++ p.out) none p.take.1 where
  toOwnEntries := h.toOwnEntries.of_same rfl rfl
  alternate := by
    rw [said_taken]
    exact h.alternate
  last := by
    rw [said_taken]
    exact h.last
  held impaired apart := h.held impaired apart
  unset none_ unlost := h.unset none_ unlost

end Impaired

end

/-- The owner closes the pool. -/
def closes : Action → Bool
  | .owner .close _ => true
  | _ => false

/-- The last report says whether a focus is impaired, and reports alternate; an impaired focus
has an entry, which is up only while its transport re-establishes its link; and one entry at
most is ours, that under our key. -/
structure Sound (w : Watched) : Prop where
  alternate : (w.system.reported.filterMap impairmentOf).IsChain (· ≠ ·)
  last : (w.system.reported.filterMap impairmentOf).getLast?.getD false =
    !w.system.pool.degradedKeys.isEmpty
  held : ∀ key ∈ w.system.pool.degradedKeys, ∃ entry, w.system.pool.pool.lookup key = some entry ∧
    (entry.state.isUp → (key, entry.generation) ∈ w.links)
  own : ∀ key entry, w.system.pool.pool.lookup key = some entry → entry.isOwn →
    w.system.pool.ownConnectionKey = some key
  once : (w.system.pool.pool.entries.filter fun e => e.2.isOwn).length ≤ 1

/-- The pool of a run, with nothing of a call left to report. -/
structure Inv (w : Watched) : Prop where
  impaired : Impaired w.links w.system.reported none w.system.pool
  out : w.system.pool.out = []

theorem inv_start (config : PoolConfig) (now : ℕ) : Inv (OwnLosses.start config now) where
  impaired :=
    { toOwnEntries := .new config
      alternate := .singleton false
      last := rfl
      held := nofun
      unset := fun _ _ => by
        cases is_key : config.ownConnectionKey <;>
          simp [MediaPool.ownEntry, OwnLosses.start, PoolTasks.start, MediaPool.new, is_key] }
  out := rfl

theorem Inv.called {w : Watched} {call : Call} {takeOver : Except TransportError Unit}
    {rest : List Flight} {lapsed : List (String × ℕ)} {t : System} (inv : Inv w)
    (h : Called w.system call takeOver rest lapsed t) (open_ : call ≠ .close) :
    Inv (w.see (linksAfter w.links call) t) := by
  have performed := @Impaired.perform _ _ _ inv.impaired ⟨call, w.system.now, takeOver⟩ h.may open_
  rw [h.result]
  exact ⟨performed.taken, rfl⟩

theorem inv_step {w w' : Watched} {a : Action} (inv : Inv w) (open_ : closes a = false)
    (next : OwnLosses.step w a = some w') : Inv w' := by
  obtain ⟨t, moved, rfl⟩ := Option.map_eq_some_iff.mp next
  obtain ⟨ms, rfl, rfl⟩ | ⟨i, result, f, rfl, -, -, rfl⟩ | ⟨call, takeOver, rfl, -, called⟩ |
    ⟨i, takeOver, f, message, rfl, delivered⟩ |
    ⟨i, event, takeOver, f, connection, rfl, happened⟩ := step_cases moved
  · exact ⟨inv.impaired, inv.out⟩
  · exact ⟨inv.impaired, inv.out⟩
  · refine inv.called called fun same => ?_
    rw [same] at open_
    cases open_
  · have calls : callOf w.system (.deliver i takeOver) = some (.handle message) := by
      simp [callOf, delivered.there, delivered.sends]
    rw [calls]
    exact inv.called delivered.called fun same => by cases same
  · have calls : callOf w.system (.event i event takeOver) =
        some (.handle (.connection connection.1 connection.2 event)) := by
      simp [callOf, happened.there, happened.forwards]
    rw [calls]
    exact inv.called happened.called fun same => by cases same

/-- Entries are ours under one key, and a key has one entry. -/
theorem once_of_entries {p : MediaPool} (h : OwnEntries p) :
    (p.pool.entries.filter fun e => e.2.isOwn).length ≤ 1 := by
  have apart : (p.pool.entries.filter fun e => e.2.isOwn).NodupKeys :=
    p.pool.nodupKeys.sublist List.filter_sublist
  have ours {e : Sigma fun _ : String => ManagedConnection}
      (there : e ∈ p.pool.entries.filter fun e => e.2.isOwn) :
      p.ownConnectionKey = some e.1 := by
    obtain ⟨there, own⟩ := List.mem_filter.mp there
    exact (h.own (lookup_eq_some_iff.mpr there)).mp own
  match entries : p.pool.entries.filter fun e => e.2.isOwn with
  | [] | [_] => simp [entries]
  | a :: b :: rest =>
      rw [entries] at apart ours
      have same := (ours (.head _)).symm.trans (ours (.tail a (.head rest)))
      refine absurd ?_ (List.nodupKeys_cons.mp apart).1
      rw [Option.some.inj same]
      exact List.mem_keys_of_mem (.head rest)

theorem Inv.sound {w : Watched} (inv : Inv w) : Sound w := by
  have all : said w.system.reported w.system.pool = w.system.reported.filterMap impairmentOf := by
    rw [said, inv.out, List.append_nil]
  have alternate := inv.impaired.alternate
  have last := inv.impaired.last
  rw [all] at alternate last
  refine ⟨alternate.tail, ?_, fun key impaired => inv.impaired.held impaired nofun,
    fun key entry found => (inv.impaired.own found).mp, once_of_entries inv.impaired.toOwnEntries⟩
  rw [List.getLast?_cons, Option.some.injEq] at last
  exact last

/-- Over every run up to its close, a pool reports its impairment as it is, and counts no
focus as impaired that has no entry, or one that is up with its link. -/
theorem impairment_reported (config : PoolConfig) (now : ℕ) (as : List Action)
    (upTo : Admissible OwnLosses.step (fun _ a => closes a = false)
      (OwnLosses.start config now) as) :
    Always OwnLosses.step Sound (OwnLosses.start config now) as :=
  always_of_admissible (fun _ _ _ => inv_step) (fun _ => Inv.sound) (inv_start config now) upTo

/-- Our own focus comes up, loses its link and is gone, and the next attempt at it fails. -/
theorem impairment_reported_lost :
    Always OwnLosses.step Sound (OwnLosses.start movableConfig 0)
      [.owner (.connectOwn "https://a.x" 10) (.ok ()), .answer 2 (.ok 10), .deliver 2 (.ok ()),
        .event 2 .reconnecting (.ok ()), .event 2 (.closed "lost") (.ok ()),
        .answer 5 (.error (.connect "timeout")), .deliver 5 (.ok ())] :=
  impairment_reported movableConfig 0 _ (by decide +kernel)

end MatrixRtc.PoolImpairments

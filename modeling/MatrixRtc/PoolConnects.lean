import MatrixRtc.OwnFocusMoves

/-!
# The connects of a media pool

A pool opens a connection to each focus that its snapshot asks for and that it has no entry
of. As long as a focus is not opened again while a connect to it is out, there is one
connect a focus at a time, and the entry there is waits for it.
-/
namespace MatrixRtc.PoolConnects
open MemberEvents MediaTransports Tables MediaPools PoolFrames OwnFocus

/-- The connection and the attempt of a connect. -/
def connectOf : Spawned → Option (String × ℕ)
  | .connect key attempt => some (key, attempt)
  | _ => none

/-- The connects that are out: those of before the call, and those it has started. -/
def connects (before : List (String × ℕ)) (p : MediaPool) : List (String × ℕ) :=
  before ++ p.spawned.filterMap connectOf

/-- No connect to the focus is out. -/
def Free (before : List (String × ℕ)) (p : MediaPool) (key : String) : Prop :=
  ∀ attempt, (key, attempt) ∉ connects before p

/-- One connect a focus is out, and where the focus has an entry it is the one that waits for
it; `old` are the focuses whose entries the call has found. -/
structure Single (old : String → Prop) (before : List (String × ℕ)) (p : MediaPool) : Prop where
  each : ((connects before p).map Prod.fst).Nodup
  peer : ∀ {key attempt}, (key, attempt) ∈ connects before p → p.ownConnectionKey ≠ some key
  waits : ∀ {key attempt entry}, (key, attempt) ∈ connects before p →
    p.pool.lookup key = some entry → entry.state = .connecting attempt ∧ entry.isOwn = false
  found : ∀ {key attempt}, (key, attempt) ∈ before → (p.pool.lookup key).isSome → old key

/-- Every focus that is asked for has an entry, and that of a peer has members where it is. -/
structure Grouped (p : MediaPool) : Prop where
  asked : p.closed = false → ∀ key, (p.desired.lookup key).isSome →
    (p.pool.lookup key).isSome ∨ p.ownConnectionKey = some key
  idle : ∀ {key entry}, p.pool.lookup key = some entry → entry.isOwn = false →
    entry.members.isEmpty → p.desired.lookup key = none

structure Peers (old : String → Prop) (before : List (String × ℕ)) (p : MediaPool) : Prop
    extends Single old before p, Grouped p

section
variable {p q r : MediaPool} {old : String → Prop} {before : List (String × ℕ)} {key : String}
  {entry : ManagedConnection}

theorem desired_congr (transports : q.transports = p.transports)
    (ownMemberId : q.ownMemberId = p.ownMemberId)
    (membersSnapshot : q.membersSnapshot = p.membersSnapshot) : q.desired = p.desired := by
  unfold MediaPool.desired
  rw [transports, ownMemberId, membersSnapshot]

/-- A focus is asked for by a member. -/
theorem members_of_desired {group : MediaTransport × List String}
    (asked : p.desired.lookup key = some group) : group.2.isEmpty = false := by
  unfold MediaPool.desired at asked
  have start : ∀ key group, (∅ : Table String (MediaTransport × List String)).lookup key =
      some group → group.2.isEmpty = false := fun _ _ none_ => nomatch none_
  generalize (∅ : Table String (MediaTransport × List String)) = groups at start asked
  generalize p.membersSnapshot = members at asked
  induction members generalizing groups with
  | nil => exact start key group asked
  | cons member rest ih =>
      refine ih _ (fun key group there => ?_) asked
      dsimp only at there
      split_ifs at there
      · exact start key group there
      · split at there
        · obtain ⟨rfl, rfl⟩ | ⟨-, there⟩ := of_lookup_insert there
          · rw [List.isEmpty_eq_false_iff]
            exact List.ne_nil_of_mem List.mem_insert_self
          · exact start key group there
        · exact start key group there

theorem connects_spawn {task : Spawned} (other : connectOf task = none) :
    connects before (p.spawn task) = connects before p := by
  simp [connects, MediaPool.spawn, other]

theorem connects_frame (p : MediaPool) :
    (frameOf p).tasks.filterMap connectOf = p.spawned.filterMap connectOf := by
  rw [frameOf, List.filterMap_filter]
  refine List.filterMap_congr fun task _ => ?_
  cases task <;> first | rfl | simp [connectOf]

theorem Single.of_same (h : Single old before p) (pool : q.pool = p.pool)
    (ownKey : q.ownConnectionKey = p.ownConnectionKey)
    (same : connects before q = connects before p) : Single old before q where
  each := same ▸ h.each
  peer there := ownKey ▸ h.peer (same ▸ there)
  waits there found := h.waits (same ▸ there) (pool ▸ found)
  found there some_ := h.found there (pool ▸ some_)

theorem Grouped.of_same (h : Grouped p) (pool : q.pool = p.pool)
    (ownKey : q.ownConnectionKey = p.ownConnectionKey) (closed : q.closed = p.closed)
    (desired : q.desired = p.desired) : Grouped q where
  asked opened key is_asked := by
    rw [pool, ownKey]
    exact h.asked (closed ▸ opened) key (desired ▸ is_asked)
  idle found notOwn none_ := by
    rw [desired]
    exact h.idle (pool ▸ found) notOwn none_

theorem endOwnLoss_eq (p : MediaPool) :
    ∃ own choice, p.endOwnLoss = { p with own := own, fallbackTarget := choice } := by
  unfold MediaPool.endOwnLoss
  split
  · exact ⟨p.own, p.fallbackTarget, rfl⟩
  · dsimp only
    split_ifs
    · exact ⟨_, none, rfl⟩
    · exact ⟨p.own, none, rfl⟩

namespace Peers

theorem of_same (h : Peers old before p) (pool : q.pool = p.pool)
    (ownKey : q.ownConnectionKey = p.ownConnectionKey) (closed : q.closed = p.closed)
    (desired : q.desired = p.desired) (same : connects before q = connects before p) :
    Peers old before q :=
  ⟨h.toSingle.of_same pool ownKey same, h.toGrouped.of_same pool ownKey closed desired⟩

theorem beside (h : Peers old before p) (beside : Beside p q) : Peers old before q := by
  have frame := beside.frame
  refine h.of_same beside.pool beside.ownKey (congrArg Frame.closed frame)
    (desired_congr (congrArg Frame.transports frame) (congrArg Frame.ownMemberId frame)
      (congrArg Frame.membersSnapshot frame)) ?_
  rw [connects, connects, ← connects_frame, ← connects_frame, frame]

theorem spawn (h : Peers old before p) {task : Spawned} (other : connectOf task = none) :
    Peers old before (p.spawn task) :=
  h.of_same rfl rfl rfl rfl (connects_spawn other)

theorem startOwnLoss (h : Peers old before p) (now : ℕ) :
    Peers old before (p.startOwnLoss now) := by
  unfold MediaPool.startOwnLoss
  split
  · next key own _ _ =>
      split_ifs
      · exact h
      · extract_lets epoch timed budgeted armed
        have toTimed : Peers old before timed := h.of_same rfl rfl rfl rfl rfl
        have toBudgeted : Peers old before budgeted := toTimed.spawn rfl
        have toArmed : Peers old before armed := by
          unfold armed
          split_ifs
          · exact toBudgeted.spawn rfl
          · exact toBudgeted
        exact toArmed.beside (beside_markDegraded key)
  · exact h

theorem endOwnLoss (h : Peers old before p) : Peers old before p.endOwnLoss := by
  obtain ⟨own, choice, same⟩ := endOwnLoss_eq p
  rw [same]
  exact h.of_same rfl rfl rfl rfl rfl

end Peers

namespace Single

theorem free_of_state (h : Single old before p) (found : p.pool.lookup key = some entry)
    (other : ∀ attempt, entry.state ≠ .connecting attempt) : Free before p key :=
  fun attempt there => other attempt (h.waits there found).1

theorem free_of_up (h : Single old before p) (found : p.pool.lookup key = some entry)
    (up : entry.state.isUp) : Free before p key :=
  h.free_of_state found fun attempt is_state => by
    rw [is_state] at up
    cases up

theorem free_of_own (h : Single old before p) (is_key : p.ownConnectionKey = some key) :
    Free before p key := fun _ there => h.peer there is_key

theorem setEntry (h : Single old before p) (free : Free before p key) :
    Single old before (p.setEntry key entry) where
  each := h.each
  peer := h.peer
  waits {key' attempt _} there found := by
    obtain ⟨rfl, -⟩ | ⟨-, found⟩ := of_lookup_insert found
    · exact absurd there (free attempt)
    · exact h.waits there found
  found {key' attempt} there some_ := by
    obtain ⟨_, found⟩ := Option.isSome_iff_exists.mp some_
    obtain ⟨rfl, -⟩ | ⟨-, found⟩ := of_lookup_insert found
    · exact absurd (List.mem_append_left _ there) (free attempt)
    · exact h.found there (Option.isSome_of_mem found)

theorem removeEntry (h : Single old before p) (key : String) :
    Single old before (p.removeEntry key) where
  each := h.each
  peer := h.peer
  waits there found := h.waits there (of_lookup_erase found).2
  found there some_ := by
    obtain ⟨_, found⟩ := Option.isSome_iff_exists.mp some_
    exact h.found there (Option.isSome_of_mem (of_lookup_erase found).2)

/-- A connect is started for the entry that is to wait for it. -/
theorem connect (h : Single old before p) {attempt : ℕ} (free : Free before p key)
    (peer : p.ownConnectionKey ≠ some key) (state : entry.state = .connecting attempt)
    (notOwn : entry.isOwn = false) :
    Single old before ((p.setEntry key entry).spawn (.connect key attempt)) := by
  have set : Single old before (p.setEntry key entry) := h.setEntry free
  have started : connects before ((p.setEntry key entry).spawn (.connect key attempt)) =
      connects before p ++ [(key, attempt)] := by
    simp [connects, MediaPool.spawn, MediaPool.setEntry, connectOf]
  refine ⟨?_, fun there => ?_, fun there found => ?_, set.found⟩
  · rw [started, List.map_append, List.map_singleton, List.nodup_append]
    refine ⟨h.each, List.nodup_singleton _, ?_⟩
    rintro _ there _ last rfl
    obtain ⟨⟨other, attempt'⟩, out, rfl⟩ := List.mem_map.mp there
    obtain rfl : other = key := List.mem_singleton.mp last
    exact free attempt' out
  · rw [started, List.mem_append, List.mem_singleton, Prod.mk.injEq] at there
    obtain before | ⟨rfl, rfl⟩ := there
    · exact set.peer before
    · exact peer
  · rw [started, List.mem_append, List.mem_singleton, Prod.mk.injEq] at there
    obtain before | ⟨rfl, rfl⟩ := there
    · exact set.waits before found
    · obtain ⟨-, rfl⟩ | ⟨differs, -⟩ := of_lookup_insert found
      · exact ⟨state, notOwn⟩
      · exact absurd rfl differs

end Single

namespace Grouped

theorem setEntry (h : Grouped p)
    (idle : entry.isOwn = false → entry.members.isEmpty → p.desired.lookup key = none) :
    Grouped (p.setEntry key entry) where
  asked opened other is_asked := by
    by_cases same : other = key
    · subst same
      exact .inl (Option.isSome_of_mem (AList.lookup_insert _))
    · rw [show (p.setEntry key entry).pool.lookup other = p.pool.lookup other from
        AList.lookup_insert_ne same]
      exact h.asked opened other is_asked
  idle found notOwn none_ := by
    obtain ⟨rfl, rfl⟩ | ⟨-, found⟩ := of_lookup_insert found
    · exact idle notOwn none_
    · exact h.idle found notOwn none_

theorem removeEntry (h : Grouped p)
    (unasked : p.desired.lookup key = none ∨ p.ownConnectionKey = some key) :
    Grouped (p.removeEntry key) where
  asked opened other is_asked := by
    by_cases same : other = key
    · subst same
      obtain unasked | is_key := unasked
      · rw [show (p.removeEntry other).desired.lookup other = none from unasked] at is_asked
        cases is_asked
      · exact .inr is_key
    · rw [show (p.removeEntry key).pool.lookup other = p.pool.lookup other from
        AList.lookup_erase_ne same]
      exact h.asked opened other is_asked
  idle found := h.idle (of_lookup_erase found).2

end Grouped

namespace Peers

theorem setEntry (h : Peers old before p) (free : Free before p key)
    (idle : entry.isOwn = false → entry.members.isEmpty → p.desired.lookup key = none) :
    Peers old before (p.setEntry key entry) :=
  ⟨h.toSingle.setEntry free, h.toGrouped.setEntry idle⟩

theorem setState (h : Peers old before p) (free : Free before p key)
    (found : p.pool.lookup key = some entry) {after : ManagedConnection}
    (members : after.members = entry.members) (own : after.isOwn = entry.isOwn) :
    Peers old before (p.setEntry key after) :=
  h.setEntry free fun notOwn none_ => h.idle found (own ▸ notOwn) (members ▸ none_)

theorem place (h : Peers old before p) (is_key : p.ownConnectionKey = some key)
    (own : entry.isOwn = true) : Peers old before (p.setEntry key entry) :=
  h.setEntry (h.free_of_own is_key) fun notOwn => absurd (own.symm.trans notOwn) Bool.noConfusion

theorem removeEntry (h : Peers old before p)
    (unasked : p.desired.lookup key = none ∨ p.ownConnectionKey = some key) :
    Peers old before (p.removeEntry key) :=
  ⟨h.toSingle.removeEntry key, h.toGrouped.removeEntry unasked⟩

end Peers

/-- What is opened is new, and is asked for. -/
structure Opened (missing : List (Sigma fun _ : String => MediaTransport × List String))
    (p q : MediaPool) : Prop where
  ownKey : q.ownConnectionKey = p.ownConnectionKey
  desired : q.desired = p.desired
  closed : q.closed = p.closed
  entries : ∀ {key entry}, q.pool.lookup key = some entry →
    p.pool.lookup key = some entry ∨ ∃ e ∈ missing, e.1 = key ∧ entry.members = e.2.2
  kept : ∀ {key}, (p.pool.lookup key).isSome → (q.pool.lookup key).isSome
  opened : ∀ e ∈ missing, (q.pool.lookup e.1).isSome ∨ p.ownConnectionKey = some e.1

theorem openPeer_eq (key : String) (backend : MediaTransport) (members : List String)
    (peer : p.ownConnectionKey ≠ some key) :
    p.openPeer key backend members = ((p.setEntry key
      { backend := some backend, members := members, isOwn := false, state := .connecting 0
        generation := 0, idleGeneration := 0 }).setEntry key
      { backend := some backend, members := members, isOwn := false, state := .connecting 0
        generation := 0, idleGeneration := 0 }).spawn (.connect key 0) := by
  have placed (entry : ManagedConnection) :
      (p.setEntry key entry).pool.lookup key = some entry := AList.lookup_insert p.pool
  rw [MediaPool.openPeer, if_neg peer, MediaPool.startConnect, placed]
  rfl

theorem opened_openPeer (e : Sigma fun _ : String => MediaTransport × List String) :
    Opened [e] p (p.openPeer e.1 e.2.1 e.2.2) := by
  by_cases peer : p.ownConnectionKey = some e.1
  · rw [MediaPool.openPeer, if_pos peer]
    refine ⟨rfl, rfl, rfl, fun found => .inl found, id, fun other there => .inr ?_⟩
    rw [List.mem_singleton.mp there]
    exact peer
  · rw [openPeer_eq _ _ _ peer]
    refine ⟨rfl, rfl, rfl, fun found => ?_, fun some_ => ?_, fun other there => .inl ?_⟩
    · obtain ⟨rfl, rfl⟩ | ⟨differs, found⟩ := of_lookup_insert found
      · exact .inr ⟨e, .head _, rfl, rfl⟩
      · obtain ⟨rfl, -⟩ | ⟨-, found⟩ := of_lookup_insert found
        · exact absurd rfl differs
        · exact .inl found
    · next key =>
      by_cases same : key = e.1
      · subst same
        exact Option.isSome_of_mem (AList.lookup_insert _)
      · refine (congrArg Option.isSome ?_).trans some_
        exact (AList.lookup_insert_ne same).trans (AList.lookup_insert_ne same)
    · rw [List.mem_singleton.mp there]
      exact Option.isSome_of_mem (AList.lookup_insert _)

namespace Opened
variable {first rest : List (Sigma fun _ : String => MediaTransport × List String)}

theorem nil (p : MediaPool) : Opened [] p p :=
  ⟨rfl, rfl, rfl, fun found => .inl found, id, fun _ there => nomatch there⟩

theorem append (h : Opened first p q) (h' : Opened rest q r) : Opened (first ++ rest) p r where
  ownKey := h'.ownKey.trans h.ownKey
  desired := h'.desired.trans h.desired
  closed := h'.closed.trans h.closed
  entries found := by
    obtain found | ⟨e, there, same⟩ := h'.entries found
    · obtain found | ⟨e, there, same⟩ := h.entries found
      · exact .inl found
      · exact .inr ⟨e, List.mem_append_left _ there, same⟩
    · exact .inr ⟨e, List.mem_append_right _ there, same⟩
  kept some_ := h'.kept (h.kept some_)
  opened e there := by
    obtain there | there := List.mem_append.mp there
    · exact (h.opened e there).imp_left h'.kept
    · exact (h'.opened e there).imp_right fun is_own => h.ownKey ▸ is_own

end Opened

theorem connects_regroup : connects before p.regroup = connects before p := by
  have none_ (entries : List (Sigma fun _ : String => ManagedConnection)) :
      (entries.map fun e => Spawned.closeIfIdle e.1 e.2.idleGeneration idleGrace).filterMap
        connectOf = [] := by
    rw [List.filterMap_map]
    exact List.filterMap_eq_nil_iff.mpr fun _ _ => rfl
  rw [connects, MediaPool.regroup, List.filterMap_append, none_, List.append_nil]
  rfl

namespace Single

/-- A focus to which no connect is out is opened, and others are as free as before. -/
theorem openPeer (h : Single old before p)
    (e : Sigma fun _ : String => MediaTransport × List String) (free : Free before p e.1) :
    Single old before (p.openPeer e.1 e.2.1 e.2.2) ∧ ∀ other, other ≠ e.1 →
      Free before p other → Free before (p.openPeer e.1 e.2.1 e.2.2) other := by
  by_cases peer : p.ownConnectionKey = some e.1
  · rw [MediaPool.openPeer, if_pos peer]
    exact ⟨h, fun _ _ free => free⟩
  · rw [openPeer_eq _ _ _ peer]
    refine ⟨(h.setEntry free).connect free peer rfl rfl, fun other differs free attempt there => ?_⟩
    simp only [connects, MediaPool.spawn, MediaPool.setEntry, List.filterMap_append,
      ← List.append_assoc] at there
    obtain before | started := List.mem_append.mp there
    · exact free attempt before
    · simp only [connectOf, List.filterMap_cons, List.filterMap_nil, List.mem_singleton,
        Prod.mk.injEq] at started
      exact differs started.1

theorem openMissing {missing : List (Sigma fun _ : String => MediaTransport × List String)}
    (h : Single old before p) (free : ∀ e ∈ missing, Free before p e.1)
    (nodup : missing.NodupKeys) :
    Single old before (missing.foldl (fun p e => p.openPeer e.1 e.2.1 e.2.2) p) ∧
      Opened missing p (missing.foldl (fun p e => p.openPeer e.1 e.2.1 e.2.2) p) := by
  induction missing generalizing p with
  | nil => exact ⟨h, .nil p⟩
  | cons e rest ih =>
      obtain ⟨fresh, nodup⟩ := List.nodupKeys_cons.mp nodup
      obtain ⟨single, still⟩ := h.openPeer e (free e (.head _))
      obtain ⟨single, opened⟩ := ih single (fun other there => still other.1
        (fun same => fresh (same ▸ List.mem_keys_of_mem there)) (free other (.tail _ there))) nodup
      exact ⟨single, (opened_openPeer e).append opened⟩

theorem regroup (h : Single old before p) : Single old before p.regroup := by
  have same : connects before p.regroup = connects before p := connects_regroup
  refine ⟨same ▸ h.each, fun there => h.peer (same ▸ there), fun there found => ?_,
    fun there some_ => ?_⟩
  · rw [lookup_regroup, Option.map_eq_some_iff] at found
    obtain ⟨_, found, rfl⟩ := found
    have waits := h.waits (same ▸ there) found
    exact waits
  · rw [lookup_regroup, Option.isSome_map] at some_
    exact h.found there some_

end Single

/-- What the snapshot asks for is opened where no connect to it is out. -/
theorem Single.reconcilePool (h : Single old before p)
    (free : ∀ key, (p.desired.lookup key).isSome → p.pool.lookup key = none →
      Free before p key) : Peers old before p.reconcilePool := by
  unfold MediaPool.reconcilePool
  extract_lets missing
  have regrouped := h.regroup
  have asks {e : Sigma fun _ : String => MediaTransport × List String} (there : e ∈ missing) :
      p.desired.lookup e.1 = some e.2 ∧ p.pool.lookup e.1 = none := by
    obtain ⟨there, none_⟩ := List.mem_filter.mp there
    exact ⟨lookup_eq_some_iff.mpr there, Option.isNone_iff_eq_none.mp none_⟩
  have nodup : missing.NodupKeys := p.desired.nodupKeys.sublist List.filter_sublist
  have freeOf (e : Sigma fun _ : String => MediaTransport × List String) (there : e ∈ missing) :
      Free before p.regroup e.1 := by
    obtain ⟨is_asked, none_⟩ := asks there
    intro attempt out
    rw [connects_regroup] at out
    exact free e.1 (Option.isSome_of_mem is_asked) none_ attempt out
  obtain ⟨single, opened⟩ := regrouped.openMissing freeOf nodup
  refine ⟨single, fun open_ key is_asked => ?_, fun found notOwn none_ => ?_⟩
  · rw [opened.desired] at is_asked
    rw [opened.ownKey]
    obtain ⟨group, is_asked⟩ := Option.isSome_iff_exists.mp is_asked
    cases is_missing : p.pool.lookup key with
    | some entry =>
        refine .inl (opened.kept ?_)
        rw [lookup_regroup, is_missing]
        rfl
    | none =>
        refine opened.opened ⟨key, group⟩ (List.mem_filter.mpr ⟨?_, ?_⟩)
        · exact lookup_eq_some_iff.mp is_asked
        · rw [is_missing]
          rfl
  · rw [opened.desired]
    obtain found | ⟨e, there, rfl, members⟩ := opened.entries found
    · rw [lookup_regroup, Option.map_eq_some_iff] at found
      obtain ⟨_, -, rfl⟩ := found
      change p.desired.lookup _ = none
      cases is_asked : p.desired.lookup _ with
      | none => rfl
      | some group =>
          rw [is_asked] at none_
          exact absurd (none_.symm.trans (members_of_desired is_asked)) Bool.noConfusion
    · rw [members, members_of_desired (asks there).1] at none_
      cases none_

namespace Peers

theorem spawnOwnAttempt (h : Peers old before p) (attempt : ℕ) :
    Peers old before (p.spawnOwnAttempt attempt) := by
  unfold MediaPool.spawnOwnAttempt
  split
  · next key own is_key _ =>
      extract_lets q r
      have asked : Peers old before q := h.of_same rfl rfl rfl rfl rfl
      refine spawn (?_ : Peers old before r) rfl
      unfold r
      split
      · next entry found => exact asked.setState (asked.free_of_own is_key) found rfl rfl
      · exact asked
  · exact h

theorem giveUpOwn (h : Peers old before p) (reason : OwnConnectionLoss) (message : String) :
    Peers old before (p.giveUpOwn reason message) := by
  unfold MediaPool.giveUpOwn
  split
  · exact h
  · next key is_key =>
      extract_lets q dropped cleared
      have calm : Peers old before q := h.of_same rfl rfl rfl rfl rfl
      have removed : Peers old before dropped :=
        (calm.beside (calm_dropped key).beside).removeEntry (.inr is_key)
      have lost : Peers old before { dropped with own := none, ownLost := true } :=
        removed.of_same rfl rfl rfl rfl rfl
      have cleared : Peers old before cleared := lost.beside (beside_clearDegraded key)
      exact cleared.of_same rfl rfl rfl rfl rfl

theorem giveUpOwnBudget (h : Peers old before p) : Peers old before p.giveUpOwnBudget := by
  unfold MediaPool.giveUpOwnBudget
  split
  · exact h
  · exact h.giveUpOwn _ _

theorem ownBackoff (h : Peers old before p) (attempt now : ℕ) :
    Peers old before (p.ownBackoff attempt now) := by
  unfold MediaPool.ownBackoff
  split
  · exact h
  · next key is_key =>
      extract_lets q left delay
      refine spawn (?_ : Peers old before q) rfl
      unfold q
      split
      · next entry found => exact h.setState (h.free_of_own is_key) found rfl rfl
      · exact h

theorem installed (h : Peers old before p) (free : Free before p key)
    (found : p.pool.lookup key = some entry) (connection : ℕ) :
    Peers old before (p.installed key entry connection) := by
  unfold MediaPool.installed
  extract_lets generation numbered set
  have toNumbered : Peers old before numbered := h.of_same rfl rfl rfl rfl rfl
  have toSet : Peers old before set := toNumbered.setState free found rfl rfl
  exact toSet.spawn rfl

/-- Where our handle moves on, the focus it leaves is the only one that may be missing, and no
connect to it is out. -/
theorem movedTo (h : Peers old before p) {ownKey target : String} (own : OwnRecovery)
    (transport : RtcTransport) (is_key : p.ownConnectionKey = some ownKey)
    (differs : target ≠ ownKey) (open_ : p.closed = false)
    (found : p.pool.lookup target = some entry) (up : entry.state.isUp) :
    Peers old before (p.movedTo ownKey target own transport) := by
  unfold MediaPool.movedTo
  extract_lets up' gone taken renamed told opened
  have toGone : Single old before gone := (h.toSingle.removeEntry ownKey).of_same rfl rfl rfl
  have stays : gone.pool.lookup target = some entry := (AList.lookup_erase_ne differs).trans found
  have entered : taken = gone.setEntry target { entry with
      isOwn := true, backend := none, state := .up own.connection } := by
    unfold taken
    rw [stays]
  have free : Free before gone target := toGone.free_of_up stays up
  have toTaken : Single old before taken := entered ▸ toGone.setEntry free
  have named : Single old before { taken with ownConnectionKey := some target } := by
    refine ⟨toTaken.each, fun there same => ?_, toTaken.waits, toTaken.found⟩
    cases same
    rw [entered] at there
    exact free _ there
  obtain ⟨after, choice, ended⟩ := endOwnLoss_eq { taken with ownConnectionKey := some target }
  have isTold : told = (({ taken with
      ownConnectionKey := some target, own := after, fallbackTarget := choice }.emit
        (.ownFocusMoved target transport)).emit (.connectionState target .connected)) := by
    unfold told renamed
    rw [ended]
  have toTold : Single old before told := by
    rw [isTold]
    exact named.of_same rfl rfl rfl
  have isOut : connects before told = connects before taken := by rw [isTold]; rfl
  have isOut : connects before told = connects before p := by
    rw [isOut, entered]
    rfl
  have goneAsked : gone.desired = p.desired := desired_congr rfl rfl rfl
  have takenAsked : taken.desired = gone.desired := by
    rw [entered]
    exact desired_congr rfl rfl rfl
  have isAsked : told.desired = taken.desired := by
    rw [isTold]
    exact desired_congr rfl rfl rfl
  have isPool : told.pool = gone.pool.insert target { entry with
      isOwn := true, backend := none, state := .up own.connection } := by
    rw [isTold, entered]
    rfl
  have reconciled : Peers old before opened := by
    refine toTold.reconcilePool fun key is_asked none_ attempt there => ?_
    rw [isOut] at there
    rw [isAsked, takenAsked, goneAsked] at is_asked
    rw [isPool] at none_
    by_cases left : key = ownKey
    · rw [left] at there
      exact h.free_of_own is_key attempt there
    · have differs : key ≠ target := by
        rintro rfl
        rw [AList.lookup_insert] at none_
        cases none_
      rw [AList.lookup_insert_ne differs] at none_
      obtain some_ | is_own := h.asked open_ key is_asked
      · rw [← show gone.pool.lookup key = p.pool.lookup key from AList.lookup_erase_ne left,
          none_] at some_
        cases some_
      · exact left (Option.some.inj (is_own.symm.trans is_key))
  split_ifs
  · exact reconciled.beside (beside_clearDegraded ownKey)
  · exact reconciled

theorem fallBack (h : Peers old before p) {ownKey target : String}
    (takeOver : Except TransportError Unit) (is_key : p.ownConnectionKey = some ownKey)
    (differs : target ≠ ownKey) (open_ : p.closed = false) :
    Peers old before (p.fallBack ownKey target takeOver) := by
  unfold MediaPool.fallBack
  split
  · next own transport entry _ _ found =>
      split_ifs with up
      · cases takeOver with
        | error error => exact h.of_same rfl rfl rfl rfl rfl
        | ok => exact h.movedTo own transport is_key differs open_ found up
      · exact h
  · exact h

theorem tryFallback (h : Peers old before p) (now : ℕ) (takeOver : Except TransportError Unit) :
    Peers old before (p.tryFallback now takeOver) := by
  unfold MediaPool.tryFallback
  split
  · exact h
  · next ownKey target choice =>
      obtain ⟨is_key, differs, open_, -⟩ := fallbackChoice_spec choice
      split_ifs
      · exact h.fallBack takeOver is_key differs open_
      · exact h.of_same rfl rfl rfl rfl rfl

theorem peerUp (h : Peers old before p) (key : String) (now : ℕ)
    (takeOver : Except TransportError Unit) : Peers old before (p.peerUp key now takeOver) := by
  unfold MediaPool.peerUp
  split_ifs
  · exact h
  · exact h.tryFallback now takeOver

theorem connectFinished (h : Peers old before p) (free : Free before p key) (attempt : ℕ)
    (result : Except TransportError ℕ) (now : ℕ) (takeOver : Except TransportError Unit) :
    Peers old before (p.connectFinished key attempt result now takeOver) := by
  unfold MediaPool.connectFinished
  split
  · exact h.beside (calm_closeStray result).beside
  · next entry found =>
      split_ifs with differs idle
      · exact h.beside (calm_closeStray result).beside
      · rw [Bool.and_eq_true, Bool.not_eq_true'] at idle
        have removed : Peers old before (p.removeEntry key) :=
          h.removeEntry (.inl (h.idle found idle.2 idle.1))
        exact (removed.beside (beside_clearDegraded key)).beside (calm_closeStray result).beside
      · cases result with
        | ok connection =>
            exact ((h.installed free found connection).beside (beside_clearDegraded key)).peerUp
              key now takeOver
        | error error =>
            have marked := h.beside (beside_markDegraded key)
            have there : (p.markDegraded key).pool.lookup key = some entry :=
              (beside_markDegraded (p := p) key).pool ▸ found
            have freed : Free before (p.markDegraded key) key := fun attempt out => by
              rw [connects, ← connects_frame, (beside_markDegraded key).frame, connects_frame] at out
              exact free attempt out
            have waits : Peers old before ((p.markDegraded key).setEntry key
                { entry with state := .backoff (attempt + 1) }) :=
              marked.setState freed there rfl rfl
            exact waits.spawn rfl

theorem retryConnect (h : Peers old before p) (entries : OwnEntries p) (key : String)
    (attempt : ℕ) : Peers old before (p.retryConnect key attempt) := by
  unfold MediaPool.retryConnect
  split
  · exact h
  · next entry found =>
      split_ifs with differs idle
      · exact h
      · rw [Bool.and_eq_true, Bool.not_eq_true'] at idle
        have removed : Peers old before (p.removeEntry key) :=
          h.removeEntry (.inl (h.idle found idle.2 idle.1))
        exact removed.beside (beside_clearDegraded key)
      · rw [not_not] at differs
        unfold MediaPool.startConnect
        rw [found]
        dsimp only
        split_ifs with unopened
        · exact h
        · have notOwn := entries.peer_of_backend found (Bool.not_eq_true _ ▸ unopened)
          have free : Free before p key := h.free_of_state found fun _ => by simp [differs]
          have started : Single old before ((p.setEntry key
              { entry with state := .connecting attempt }).spawn (.connect key attempt)) :=
            h.toSingle.connect free (entries.peer found notOwn) rfl notOwn
          have grouped : Grouped (p.setEntry key { entry with state := .connecting attempt }) :=
            h.toGrouped.setEntry fun notOwn none_ => h.idle found notOwn none_
          exact ⟨started, grouped.of_same rfl rfl rfl rfl⟩

theorem closeIfIdle (h : Peers old before p) (key : String) (idleGeneration : ℕ) :
    Peers old before (p.closeIfIdle key idleGeneration) := by
  unfold MediaPool.closeIfIdle
  split_ifs with closes
  · extract_lets dropped closed
    have unasked : p.desired.lookup key = none := by
      unfold MediaPool.idleCloses at closes
      split at closes
      · cases closes
      · next entry found =>
          rw [Bool.and_eq_true, Bool.and_eq_true, Bool.not_eq_true'] at closes
          exact h.idle found closes.2 closes.1.2
    have removed : Peers old before dropped :=
      (h.beside (calm_dropped key).beside).removeEntry (.inl unasked)
    have closed : Peers old before closed := by
      unfold closed
      split
      · exact removed.beside (calm_closeEntry _).beside
      · exact removed
    exact closed.beside (beside_clearDegraded key)
  · exact h

theorem connectionDown (h : Peers old before p) (key : String) (generation : ℕ)
    (message : String) (now : ℕ) :
    Peers old before (p.connectionDown key generation message now) := by
  have toDropped : Beside p ((p.dropUnmappedOn key).dropPendingFrom key) :=
    (calm_dropped key).beside
  have toMarked := (toDropped.trans (calm_retireTracks key).beside).trans (beside_markDegraded key)
  have after := h.beside toMarked
  unfold MediaPool.connectionDown
  split
  · exact h
  · next entry found =>
      have there := toMarked.pool ▸ found
      split_ifs with replaced unrecovered is_own empty
      · exact h
      · exact (h.beside toDropped).giveUpOwn _ _
      · exact (after.startOwnLoss now).spawnOwnAttempt 0
      · have removed : Peers old before (MediaPool.removeEntry _ key) :=
          after.removeEntry (.inl (after.idle there (Bool.not_eq_true _ ▸ is_own) empty))
        exact removed.beside (beside_clearDegraded key)
      · rw [Bool.or_eq_true, not_or, Bool.not_eq_true', Bool.not_eq_false] at replaced
        have waits : Peers old before (MediaPool.setEntry _ key { entry with state := .backoff 0 }) :=
          after.setState (after.free_of_up there replaced.2) there rfl rfl
        have none_ : connectOf (.retryConnect key 0 (backoffDelay 0)) = none := rfl
        exact waits.spawn none_

theorem reconnected (h : Peers old before p) (key : String) (now : ℕ)
    (takeOver : Except TransportError Unit) : Peers old before (p.reconnected key now takeOver) := by
  unfold MediaPool.reconnected
  extract_lets q
  have toQ : Peers old before q := by
    unfold q
    split_ifs
    · exact h.endOwnLoss
    · exact h
  exact ((toQ.beside (beside_clearDegraded key)).peerUp key now takeOver).beside
    (calm_reapplyConnectionConstraints key).beside

theorem handleConnectionEvent (h : Peers old before p) (key : String) (event : ConnectionEvent)
    (now : ℕ) (takeOver : Except TransportError Unit) :
    Peers old before (p.handleConnectionEvent key event now takeOver) := by
  cases event with
  | reconnecting =>
      have marked := h.beside (beside_markDegraded key)
      unfold MediaPool.handleConnectionEvent
      unfold MediaPool.reconnecting
      dsimp only
      split_ifs
      · exact marked.startOwnLoss now
      · exact marked
  | reconnected => exact h.reconnected key now takeOver
  | closed message => exact h.connectionDown key _ message now
  | _ => exact h.beside (calm_handleConnectionEvent rfl key now takeOver).beside

theorem ownConnectFinished (h : Peers old before p) (attempt : ℕ)
    (result : Except TransportError Unit) (now : ℕ) :
    Peers old before (p.ownConnectFinished attempt result now) := by
  unfold MediaPool.ownConnectFinished
  split
  · next key own is_key is_own =>
      split
      · cases result with
        | ok =>
            dsimp only
            split_ifs
            · exact h.spawn rfl
            · exact h
        | error error => exact h
      · next entry waits =>
          have found := (Option.filter_eq_some_iff.mp waits).1
          cases result with
          | ok =>
              dsimp only
              have everUp : Peers old before { p with own := some { own with everUp := true } } :=
                h.of_same rfl rfl rfl rfl rfl
              have installed := everUp.installed (h.free_of_own is_key) found own.connection
              exact (installed.endOwnLoss.beside (beside_clearDegraded key)).beside
                (calm_reapplyConnectionConstraints key).beside
          | error error =>
              dsimp only
              split_ifs with spent refetched
              · cases error with
                | tokenRejected message | refused message => exact h.giveUpOwn _ _
                | unsupported | connect | closed => exact h.giveUpOwnBudget
              all_goals
                cases error with
                | tokenRejected message =>
                    first
                    | exact h.giveUpOwn _ _
                    | exact (h.of_same rfl rfl rfl rfl rfl : Peers old before
                        { p with own := some { own with
                            tokenRefetched := true, refetchNext := true } }).ownBackoff _ now
                | refused message => exact h.giveUpOwn _ _
                | unsupported | connect | closed => exact h.ownBackoff _ now
  · exact h

theorem ownBudget (h : Peers old before p) (epoch : ℕ) : Peers old before (p.ownBudget epoch) := by
  unfold MediaPool.ownBudget
  split_ifs
  · extract_lets q r
    have spent : Peers old before q := h.of_same rfl rfl rfl rfl rfl
    refine spawn (?_ : Peers old before r) rfl
    unfold r
    split
    · exact spent.spawnOwnAttempt _
    · exact spent
  · exact h

/-- No message starts a second connect to a focus. -/
theorem handle (h : Peers old before p) (entries : OwnEntries p) (message : Message)
    (free : ∀ key attempt result, message = .connectFinished key attempt result →
      Free before p key) (now : ℕ) (takeOver : Except TransportError Unit) :
    Peers old before (p.handle message now takeOver) := by
  unfold MediaPool.handle
  cases message with
  | connection key generation event =>
      dsimp only
      split_ifs
      · exact h.handleConnectionEvent key event now takeOver
      · exact h
  | connectionEnded key generation => exact h.connectionDown key generation _ now
  | connectFinished key attempt result =>
      exact h.connectFinished (free key attempt result rfl) attempt result now takeOver
  | retryConnect key attempt => exact h.retryConnect entries key attempt
  | closeIfIdle key idleGeneration => exact h.closeIfIdle key idleGeneration
  | applyConstraints memberId kind generation =>
      dsimp only
      split_ifs
      · exact h.beside (calm_applyConstraintsNow memberId kind).beside
      · exact h
  | ownConnectFinished attempt result => exact h.ownConnectFinished attempt result now
  | ownRetry attempt =>
      have tried := h.tryFallback now takeOver
      unfold MediaPool.ownRetry
      dsimp only
      split_ifs
      · exact tried.spawnOwnAttempt attempt
      · exact tried
  | ownBudget epoch => exact h.ownBudget epoch
  | ownFinalAttemptExpired epoch =>
      dsimp only
      split_ifs
      · exact h.giveUpOwnBudget
      · exact h
  | ownFallback epoch =>
      dsimp only
      split_ifs
      · exact h.tryFallback now takeOver
      · exact h

/-- A snapshot that asks for no focus to which a connect is out and that has no entry. -/
theorem applySnapshot (h : Peers old before p) (snapshot : List JoinedMembership)
    (free : ∀ key, ({ p with membersSnapshot := snapshot }.desired.lookup key).isSome →
      p.pool.lookup key = none → Free before p key) :
    Peers old before (p.applySnapshot snapshot) := by
  unfold MediaPool.applySnapshot
  have joined := (calm_joined (p := p) snapshot).beside
  generalize snapshot.foldl MediaPool.joinMember (p.forgetDeparted snapshot) = q at joined
  have toQ := (h.beside joined).toSingle
  have named : Single old before { q with membersSnapshot := snapshot } := toQ.of_same rfl rfl rfl
  refine named.reconcilePool fun key is_asked none_ attempt there => ?_
  have same : { q with membersSnapshot := snapshot }.desired =
      { p with membersSnapshot := snapshot }.desired :=
    desired_congr (congrArg Frame.transports joined.frame)
      (congrArg Frame.ownMemberId joined.frame) rfl
  refine free key (same ▸ is_asked) (joined.pool ▸ none_) attempt ?_
  rw [connects, ← connects_frame, ← joined.frame, connects_frame]
  exact there

theorem close (h : Peers old before p) : Peers old before p.close := by
  unfold MediaPool.close
  extract_lets q
  have emptied : Peers old before q :=
    { each := h.each
      peer := h.peer
      waits := fun _ found => nomatch found
      found := fun _ some_ => nomatch some_
      asked := fun open_ => nomatch open_
      idle := fun found => nomatch found }
  exact emptied.beside
    (Calm.foldl (fun _ (e : Sigma fun _ : String => ManagedConnection) =>
      calm_closeEntry e.2) _ _).beside

/-- No call starts a second connect to a focus. -/
theorem perform (h : Peers old before p) (entries : OwnEntries p) {input : Input}
    (may : PoolTasks.allowed p input.call ∨ ∃ message, input.call = .handle message)
    (free : ∀ key attempt result, input.call = .handle (.connectFinished key attempt result) →
      Free before p key)
    (unopened : ∀ snapshot, input.call = .applySnapshot snapshot → ∀ key,
      ({ p with membersSnapshot := snapshot }.desired.lookup key).isSome →
        p.pool.lookup key = none → Free before p key) : Peers old before (p.perform input) := by
  have is_own {key : String} {connection : ℕ} (call : input.call = .connectOwn key connection ∨
      input.call = .adoptOwnConnection key connection) : p.ownConnectionKey = some key := by
    obtain may | ⟨message, other⟩ := may
    · obtain call | call := call <;> rw [call] at may <;> simp [PoolTasks.allowed] at may <;>
        exact may.2
    · obtain call | call := call <;> cases other.symm.trans call
  unfold MediaPool.perform
  cases call : input.call with
  | handle message =>
      refine h.handle entries message (fun key attempt result same => ?_) _ _
      exact free key attempt result (call.trans (congrArg Call.handle same))
  | applySnapshot snapshot => exact h.applySnapshot snapshot (unopened snapshot call)
  | adoptOwnConnection key connection =>
      have is_key := is_own (.inr call)
      dsimp only
      unfold MediaPool.adoptOwnConnection
      extract_lets generation q
      have toQ : Peers old before q := h.of_same rfl rfl rfl rfl rfl
      exact spawn (toQ.place is_key rfl) rfl
  | connectOwn key connection =>
      have is_key := is_own (.inl call)
      dsimp only
      unfold MediaPool.connectOwn
      extract_lets q placed
      have toQ : Peers old before q := h.of_same rfl rfl rfl rfl rfl
      have toPlaced : Peers old before placed := toQ.place is_key rfl
      exact (toPlaced.startOwnLoss _).spawnOwnAttempt 0
  | keyImported identity keyIndex => exact h.beside (calm_keyImported identity keyIndex).beside
  | setConstraints memberId kind constraints =>
      exact h.beside (calm_setConstraints memberId kind constraints).beside
  | setSignallingReachable reachable =>
      have set : Peers old before { p with signallingReachable := reachable } :=
        h.of_same rfl rfl rfl rfl rfl
      dsimp only
      unfold MediaPool.setSignallingReachable
      dsimp only
      split_ifs
      · exact set.tryFallback _ _
      · exact set
  | close => exact h.close

end Peers

end

end MatrixRtc.PoolConnects

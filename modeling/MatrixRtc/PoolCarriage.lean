import MatrixRtc.PoolMembers

/-!
# What carries the media of a pool

A track, subscribed or buffered, names the connection it came over. That connection is up
as long as what takes a connection down takes its tracks along; which operations do is shown
here, one by one, with what the others would need.
-/
namespace MatrixRtc.PoolCarriage
open MemberEvents MediaTransports Tables MediaPools PoolMoves PoolMembers

/-- A subscribed track came over the connection. -/
def hasTrack (m : Media) (key : String) : Bool :=
  m.tracks.entries.any fun e => e.2.connectionKey == key

/-- A buffered track came over the connection. -/
def buffers (m : Media) (key : String) : Bool :=
  m.pendingTracks.entries.any fun e => e.2.any fun buffered => buffered.2.connectionKey == key

/-- Some track names the connection. -/
def names (m : Media) (key : String) : Bool := hasTrack m key || buffers m key

/-- The connection is up. -/
def isUp (m : Media) (key : String) : Bool := (m.pool.lookup key).any (·.state.isUp)

/-- Whatever is named is up. -/
structure Carried (p : MediaPool) : Prop where
  up : ∀ key, names (mediaOf p) key → isUp (mediaOf p) key

section
variable {p q r : MediaPool}

theorem hasTrack_iff {m : Media} {key : String} :
    hasTrack m key ↔ ∃ s pooled, m.tracks.lookup s = some pooled ∧ pooled.connectionKey = key := by
  simp only [hasTrack, List.any_eq_true, beq_iff_eq, lookup_eq_some_iff]
  constructor
  · rintro ⟨⟨s, pooled⟩, there, same⟩
    exact ⟨s, pooled, there, same⟩
  · rintro ⟨s, pooled, there, same⟩
    exact ⟨⟨s, pooled⟩, there, same⟩

theorem buffers_iff {m : Media} {key : String} :
    buffers m key ↔ ∃ identity pending, m.pendingTracks.lookup identity = some pending ∧
      ∃ buffered ∈ pending, buffered.2.connectionKey = key := by
  simp only [buffers, List.any_eq_true, beq_iff_eq, lookup_eq_some_iff]
  constructor
  · rintro ⟨⟨identity, pending⟩, there, buffered⟩
    exact ⟨identity, pending, there, buffered⟩
  · rintro ⟨identity, pending, there, buffered⟩
    exact ⟨⟨identity, pending⟩, there, buffered⟩

theorem buffers_of_mem {m : Media} {identity : String} {b : MediaStreamKind × PooledTrack}
    (there : b ∈ (m.pendingTracks.lookup identity).getD []) : buffers m b.2.connectionKey := by
  cases found : m.pendingTracks.lookup identity with
  | none =>
      rw [found] at there
      cases there
  | some pending =>
      rw [found] at there
      exact buffers_iff.mpr ⟨identity, pending, found, b, there, rfl⟩

theorem isUp_iff {m : Media} {key : String} :
    isUp m key ↔ ∃ entry, m.pool.lookup key = some entry ∧ entry.state.isUp := by
  simp [isUp, Option.any_eq_true]

theorem names_iff {m : Media} {key : String} : names m key ↔ hasTrack m key ∨ buffers m key := by
  rw [names, Bool.or_eq_true]

namespace Carried

theorem start (config : PoolConfig) : Carried (.new config) := ⟨fun _ named => nomatch named⟩

theorem unnamed (h : Carried p) {key : String} (down : ¬ isUp (mediaOf p) key) :
    ¬ names (mediaOf p) key := fun named => down (h.up key named)

theorem unnamed_of_state (h : Carried p) {key : String} {entry : ManagedConnection}
    (found : p.pool.lookup key = some entry) (down : entry.state.isUp = false) :
    ¬ names (mediaOf p) key := by
  refine h.unnamed fun up => ?_
  obtain ⟨other, there, is_up⟩ := isUp_iff.mp up
  obtain rfl : entry = other := Option.some.inj (found.symm.trans there)
  exact Bool.false_ne_true (down.symm.trans is_up)

theorem of_media (h : Carried p) (same : mediaOf q = mediaOf p) : Carried q := ⟨same ▸ h.up⟩

theorem quiet (h : Carried p) (calm : Quiet p q) : Carried q := h.of_media calm.media

theorem fewer (h : Carried p) (named : ∀ key, names (mediaOf q) key → names (mediaOf p) key)
    (pool : q.pool = p.pool) : Carried q where
  up key there := by
    have up := h.up key (named key there)
    rwa [isUp, show (mediaOf q).pool = (mediaOf p).pool from pool]

theorem setEntry (h : Carried p) {key : String} {entry : ManagedConnection}
    (up : names (mediaOf p) key → entry.state.isUp) : Carried (p.setEntry key entry) where
  up other named := by
    have named : names (mediaOf p) other := named
    rw [isUp_iff]
    by_cases same : other = key
    · subst same
      exact ⟨entry, AList.lookup_insert _, up named⟩
    · obtain ⟨before, found, is_up⟩ := isUp_iff.mp (h.up other named)
      exact ⟨before, (AList.lookup_insert_ne same).trans found, is_up⟩

theorem setUnnamed (h : Carried p) {key : String} (unnamed : ¬ names (mediaOf p) key)
    (entry : ManagedConnection) : Carried (p.setEntry key entry) :=
  h.setEntry fun named => absurd named unnamed

theorem removeEntry (h : Carried p) {key : String} (unnamed : ¬ names (mediaOf p) key) :
    Carried (p.removeEntry key) where
  up other named := by
    have named : names (mediaOf p) other := named
    have differs : other ≠ key := fun same => unnamed (same ▸ named)
    obtain ⟨entry, found, is_up⟩ := isUp_iff.mp (h.up other named)
    exact isUp_iff.mpr ⟨entry, (AList.lookup_erase_ne differs).trans found, is_up⟩

theorem startConnect (h : Carried p) {key : String} (attempt : ℕ)
    (unnamed : ¬ names (mediaOf p) key) : Carried (p.startConnect key attempt) := by
  unfold MediaPool.startConnect
  split
  · exact h
  · next entry found =>
      split_ifs
      · exact h
      · exact (h.setUnnamed unnamed _).quiet (quiet_spawn _)

theorem openPeer (h : Carried p) {key : String} (backend : MediaTransport) (members : List String)
    (unnamed : ¬ names (mediaOf p) key) : Carried (p.openPeer key backend members) := by
  unfold MediaPool.openPeer
  split_ifs
  · exact h
  · exact startConnect (h.setUnnamed unnamed _) 0 unnamed

theorem regroup (h : Carried p) : Carried p.regroup where
  up key named := by
    obtain ⟨entry, found, is_up⟩ := isUp_iff.mp (h.up key named)
    refine isUp_iff.mpr ⟨_, (lookup_mapValues p.pool _ key).trans (congrArg _ found), is_up⟩

theorem names_startConnect (key : String) (attempt : ℕ) :
    names (mediaOf (p.startConnect key attempt)) = names (mediaOf p) := by
  unfold MediaPool.startConnect
  split
  · rfl
  · split_ifs <;> rfl

theorem names_openPeer (key : String) (backend : MediaTransport) (members : List String) :
    names (mediaOf (p.openPeer key backend members)) = names (mediaOf p) := by
  unfold MediaPool.openPeer
  split_ifs
  · rfl
  · exact names_startConnect key 0

/-- The connections there are none of yet are opened: nothing named them. -/
theorem reconcilePool (h : Carried p) : Carried p.reconcilePool := by
  unfold MediaPool.reconcilePool
  extract_lets missing
  have unnamed : ∀ e ∈ missing, ¬ names (mediaOf p.regroup) e.1 := by
    intro e there
    refine h.unnamed fun up => ?_
    obtain ⟨entry, found, -⟩ := isUp_iff.mp up
    have none_ := (List.mem_filter.mp there).2
    rw [show p.pool.lookup e.1 = some entry from found] at none_
    cases none_
  have regrouped := h.regroup
  generalize p.regroup = q at unnamed regrouped
  clear_value missing
  induction missing generalizing q with
  | nil => exact regrouped
  | cons e rest ih =>
      refine ih _ (fun other there => ?_) (regrouped.openPeer _ _ (unnamed e (.head _)))
      rw [names_openPeer]
      exact unnamed other (.tail _ there)

theorem retryConnect (h : Carried p) (key : String) (attempt : ℕ) :
    Carried (p.retryConnect key attempt) := by
  unfold MediaPool.retryConnect
  split
  · exact h
  · next entry found =>
      split_ifs with differs idle
      · exact h
      all_goals
        rw [not_not] at differs
        have unnamed := h.unnamed_of_state found (by rw [differs]; rfl)
      · exact (h.removeEntry unnamed).quiet (quiet_clearDegraded key)
      · exact h.startConnect attempt unnamed

theorem installed (h : Carried p) (key : String) (entry : ManagedConnection) (connection : ℕ) :
    Carried (p.installed key entry connection) := by
  unfold MediaPool.installed
  extract_lets generation numbered set
  have same : Carried numbered := h.of_media rfl
  exact (same.setEntry fun _ => rfl).quiet (quiet_spawn _)

theorem buffers_dropPendingFrom {key other : String}
    (h : buffers (mediaOf (p.dropPendingFrom key)) other) :
    other ≠ key ∧ buffers (mediaOf p) other := by
  obtain ⟨identity, pending, found, buffered, there, rfl⟩ := buffers_iff.mp h
  obtain ⟨kept, -⟩ := of_lookup_retain found
  obtain ⟨before, was, rfl⟩ :=
    Option.map_eq_some_iff.mp ((lookup_mapValues p.pendingTracks _ identity).symm.trans kept)
  obtain ⟨thereBefore, differs⟩ := List.mem_filter.mp there
  exact ⟨by simpa using differs,
    buffers_iff.mpr ⟨identity, before, was, buffered, thereBefore, rfl⟩⟩

theorem names_dropPendingFrom {key other : String}
    (h : names (mediaOf (p.dropPendingFrom key)) other) : names (mediaOf p) other := by
  obtain tracks | buffered := names_iff.mp h
  · exact names_iff.mpr (.inl tracks)
  · exact names_iff.mpr (.inr (buffers_dropPendingFrom buffered).2)

theorem unnamed_dropPendingFrom {key : String} (untracked : ¬ hasTrack (mediaOf p) key) :
    ¬ names (mediaOf (p.dropPendingFrom key)) key := by
  intro named
  obtain tracks | buffered := names_iff.mp named
  · exact untracked tracks
  · exact (buffers_dropPendingFrom buffered).1 rfl

theorem dropPendingFrom (h : Carried p) (key : String) : Carried (p.dropPendingFrom key) :=
  h.fewer (fun _ named => names_dropPendingFrom named) rfl

theorem takenDown (h : Carried p) {key : String} (untracked : ¬ hasTrack (mediaOf p) key) :
    Carried (((p.dropUnmappedOn key).dropPendingFrom key).removeEntry key) :=
  removeEntry (dropPendingFrom (h.quiet (quiet_dropUnmappedOn key)) key)
    (unnamed_dropPendingFrom untracked)

theorem closeIfIdle (h : Carried p) {key : String} {idleGeneration : ℕ}
    (untracked : p.idleCloses key idleGeneration → ¬ hasTrack (mediaOf p) key) :
    Carried (p.closeIfIdle key idleGeneration) := by
  unfold MediaPool.closeIfIdle
  split_ifs with closes
  · extract_lets dropped closed
    have gone : Carried dropped := h.takenDown (untracked closes)
    have calm : Quiet dropped closed := by
      unfold closed
      split
      · exact quiet_closeEntry _
      · exact .refl dropped
    exact (gone.quiet calm).quiet (quiet_clearDegraded key)
  · exact h

theorem spawnOwnAttempt (h : Carried p) (attempt : ℕ)
    (unnamed : ∀ key, p.ownConnectionKey = some key → ¬ names (mediaOf p) key) :
    Carried (p.spawnOwnAttempt attempt) := by
  unfold MediaPool.spawnOwnAttempt
  split
  · next key own is_key is_own =>
      extract_lets q r
      have asked : Quiet p q := quiet_own _
      refine Carried.quiet (p := r) ?_ (quiet_spawn _)
      unfold r
      split
      · next entry found =>
          exact (h.quiet asked).setUnnamed (unnamed key is_key) _
      · exact h.quiet asked
  · exact h

theorem giveUpOwn (h : Carried p) (reason : OwnConnectionLoss) (message : String)
    (untracked : ∀ key, p.ownConnectionKey = some key → ¬ hasTrack (mediaOf p) key) :
    Carried (p.giveUpOwn reason message) := by
  unfold MediaPool.giveUpOwn
  split
  · exact h
  · next key is_key =>
      extract_lets q dropped cleared
      have calm : Quiet p q := .of_same rfl rfl rfl rfl
      have gone : Carried dropped := (h.quiet calm).takenDown (untracked key is_key)
      have lost : Carried { dropped with own := none, ownLost := true } := gone.of_media rfl
      exact ((lost.quiet (quiet_clearDegraded key)).quiet (quiet_emit fun _ => rfl)).quiet
        (quiet_emit fun _ => rfl)

theorem giveUpOwnBudget (h : Carried p)
    (untracked : ∀ key, p.ownConnectionKey = some key → ¬ hasTrack (mediaOf p) key) :
    Carried p.giveUpOwnBudget := by
  unfold MediaPool.giveUpOwnBudget
  split
  · exact h
  · exact h.giveUpOwn _ _ untracked

theorem ownBackoff (h : Carried p) (attempt now : ℕ)
    (unnamed : ∀ key, p.ownConnectionKey = some key → ¬ names (mediaOf p) key) :
    Carried (p.ownBackoff attempt now) := by
  unfold MediaPool.ownBackoff
  split
  · exact h
  · next key is_key =>
      extract_lets q left delay
      refine Carried.quiet (p := q) ?_ (quiet_spawn _)
      unfold q
      split
      · next entry found =>
          exact h.setUnnamed (unnamed key is_key) _
      · exact h

/-- Our handle takes a peer's connection over, with nothing subscribed over ours. -/
theorem movedTo (h : Carried p) {ownKey : String} (target : String) (own : OwnRecovery)
    (transport : RtcTransport) (untracked : ¬ hasTrack (mediaOf p) ownKey) :
    Carried (p.movedTo ownKey target own transport) := by
  unfold MediaPool.movedTo
  extract_lets up gone taken renamed told opened
  have left : Carried gone := (h.takenDown untracked).of_media rfl
  have entered : Carried taken := by
    unfold taken
    split
    · exact left.setEntry fun _ => rfl
    · exact left
  have moved : Carried { taken with ownConnectionKey := some target } := ⟨entered.up⟩
  have reconciled : Carried opened := Carried.reconcilePool <|
    ((moved.quiet quiet_endOwnLoss).quiet (quiet_emit fun _ => rfl)).quiet
      (quiet_emit fun _ => rfl)
  split_ifs
  · exact reconciled.quiet (quiet_clearDegraded ownKey)
  · exact reconciled

end Carried

/-- Where our own focus was, if our media falls back to a peer's now. -/
def leavesOwn (p : MediaPool) (now : ℕ) (takeOver : Except TransportError Unit) : Option String :=
  match p.fallbackChoice now, takeOver with
  | some (ownKey, target), .ok () =>
      if (p.pool.lookup target).any (p.carries target) && p.own.isSome &&
          (p.transportForKey target).isSome then some ownKey
      else none
  | _, _ => none

namespace Carried

theorem tryFallback (h : Carried p) (now : ℕ) (takeOver : Except TransportError Unit)
    (untracked : ∀ key, leavesOwn p now takeOver = some key → ¬ hasTrack (mediaOf p) key) :
    Carried (p.tryFallback now takeOver) := by
  unfold MediaPool.tryFallback
  split
  · exact h
  · next ownKey target chosen =>
      split_ifs with carries
      · unfold MediaPool.fallBack
        split
        · next own transport entry is_own found entered =>
            split_ifs
            · cases takeOver with
              | error error => exact h.of_media rfl
              | ok _ =>
                  refine h.movedTo target own transport (untracked ownKey ?_)
                  simp [leavesOwn, chosen, carries, is_own, found]
            · exact h
        · exact h
      · exact h.of_media rfl

theorem peerUp (h : Carried p) (key : String) (now : ℕ) (takeOver : Except TransportError Unit)
    (untracked : p.ownConnectionKey ≠ some key → ∀ ownKey,
      leavesOwn p now takeOver = some ownKey → ¬ hasTrack (mediaOf p) ownKey) :
    Carried (p.peerUp key now takeOver) := by
  unfold MediaPool.peerUp
  split_ifs with is_own
  · exact h
  · exact h.tryFallback now takeOver (untracked is_own)

end Carried

end

end MatrixRtc.PoolCarriage

import MatrixRtc.PoolCarriage

/-!
# What the calls of a media pool do to what carries its media

The tracks that come and go, the connections that are lost and reconnect, the members that
join and leave, and from them the calls of the owner: each leaves every track on a
connection that is up, where a fallback leaves no track behind.
-/
namespace MatrixRtc.PoolCarriage
open MemberEvents MediaTransports Tables MediaPools PoolMoves PoolMembers

section
variable {p q r : MediaPool}

namespace Carried

theorem addTrack (h : Carried p) (memberId : String) (kind : MediaStreamKind)
    {pooled : PooledTrack} (up : isUp (mediaOf p) pooled.connectionKey) :
    Carried (p.addTrack memberId kind pooled) := by
  obtain ⟨events, -, calm⟩ := addTrack_spec p memberId kind pooled
  have added : Carried { p with
      tracks := p.tracks.insert (memberId, kind) pooled
      out := p.out ++ events } := ⟨fun key named => ?_⟩
  · exact added.quiet calm
  obtain tracked | buffered := names_iff.mp named
  · obtain ⟨s, other, found, rfl⟩ := hasTrack_iff.mp tracked
    have found : (p.tracks.insert (memberId, kind) pooled).lookup s = some other := found
    obtain ⟨-, rfl⟩ | ⟨-, before⟩ := of_lookup_insert found
    · exact up
    · exact h.up _ (names_iff.mpr (.inl (hasTrack_iff.mpr ⟨s, other, before, rfl⟩)))
  · exact h.up key (names_iff.mpr (.inr buffered))

end Carried

/-- Tracks may be gone, and nothing else of the media. -/
structure Fewer (p q : MediaPool) : Prop where
  tracks : ∀ {s : Stream} {pooled}, q.tracks.lookup s = some pooled →
    p.tracks.lookup s = some pooled
  pendingTracks : q.pendingTracks = p.pendingTracks
  pool : q.pool = p.pool
  ownKey : q.ownConnectionKey = p.ownConnectionKey

theorem Fewer.refl (p : MediaPool) : Fewer p p := ⟨id, rfl, rfl, rfl⟩

theorem Fewer.trans (first : Fewer p q) (second : Fewer q r) : Fewer p r :=
  ⟨fun found => first.tracks (second.tracks found),
    second.pendingTracks.trans first.pendingTracks, second.pool.trans first.pool,
    second.ownKey.trans first.ownKey⟩

theorem Fewer.buffers (less : Fewer p q) : buffers (mediaOf q) = buffers (mediaOf p) := by
  funext key
  rw [PoolCarriage.buffers, PoolCarriage.buffers,
    show (mediaOf q).pendingTracks = (mediaOf p).pendingTracks from less.pendingTracks]

theorem Fewer.names (less : Fewer p q) {key : String} (named : names (mediaOf q) key) :
    names (mediaOf p) key := by
  obtain tracked | there := names_iff.mp named
  · obtain ⟨s, pooled, found, same⟩ := hasTrack_iff.mp tracked
    exact names_iff.mpr (.inl (hasTrack_iff.mpr ⟨s, pooled, less.tracks found, same⟩))
  · exact names_iff.mpr (.inr (less.buffers ▸ there))

theorem fewer_removeTrack (memberId : String) (kind : MediaStreamKind) (key : String) :
    Fewer p (p.removeTrack memberId kind key) := by
  unfold MediaPool.removeTrack
  split_ifs
  · exact ⟨fun found => (of_lookup_erase found).2, rfl, rfl, rfl⟩
  · exact .refl p

theorem fewer_removeAll (key : String) (streams : List Stream) (p : MediaPool) :
    Fewer p (streams.foldl (fun p stream => p.removeTrack stream.1 stream.2 key) p) := by
  induction streams generalizing p with
  | nil => exact .refl p
  | cons stream rest ih => exact (fewer_removeTrack stream.1 stream.2 key).trans (ih _)

theorem fewer_retireTracks (key : String) : Fewer p (p.retireTracks key) :=
  fewer_removeAll key _ p

theorem lookup_removeTrack {s : Stream} {key : String} {pooled : PooledTrack}
    (found : (p.removeTrack s.1 s.2 key).tracks.lookup s = some pooled) :
    pooled.connectionKey ≠ key := by
  unfold MediaPool.removeTrack at found
  split_ifs at found with here
  · exact absurd rfl (of_lookup_erase found).1
  · rintro rfl
    rw [show p.tracks.lookup (s.1, s.2) = some pooled from found] at here
    exact here (beq_self_eq_true pooled.connectionKey)

theorem lookup_removeAll {key : String} {s : Stream} {pooled : PooledTrack}
    (streams : List Stream) (p : MediaPool)
    (found : (streams.foldl (fun p stream =>
      p.removeTrack stream.1 stream.2 key) p).tracks.lookup s = some pooled)
    (there : s ∈ streams) : pooled.connectionKey ≠ key := by
  induction streams generalizing p with
  | nil => cases there
  | cons stream rest ih =>
      obtain rfl | there := List.mem_cons.mp there
      · exact lookup_removeTrack ((fewer_removeAll key rest _).tracks found)
      · exact ih _ found there

theorem untracked_retireTracks (p : MediaPool) (key : String) :
    ¬ hasTrack (mediaOf (p.retireTracks key)) key := by
  intro tracked
  obtain ⟨s, pooled, found, same⟩ := hasTrack_iff.mp tracked
  refine lookup_removeAll _ p found ?_ same
  refine (List.mem_insertionSort MediaPool.streamLe).mpr
    (List.mem_map.mpr ⟨⟨s, pooled⟩, ?_, rfl⟩)
  have before : p.tracks.lookup s = some pooled := (fewer_retireTracks key).tracks found
  exact List.mem_filter.mpr ⟨lookup_eq_some_iff.mp before, by simpa using same⟩

namespace Carried

theorem of_fewer (h : Carried p) (less : Fewer p q) : Carried q :=
  h.fewer (fun _ named => less.names named) less.pool

theorem trackAdded (h : Carried p) {key : String} (identity : String) (kind : MediaStreamKind)
    (track : ℕ) (up : isUp (mediaOf p) key) : Carried (p.trackAdded key identity kind track) := by
  unfold MediaPool.trackAdded
  split
  · exact h.addTrack _ kind up
  · extract_lets buffered
    refine ⟨fun other named => ?_⟩
    obtain tracked | there := names_iff.mp named
    · exact h.up other (names_iff.mpr (.inl tracked))
    · obtain ⟨of, pending, found, b, member, rfl⟩ := buffers_iff.mp there
      have found : (p.pendingTracks.insert identity buffered).lookup of = some pending := found
      obtain ⟨-, rfl⟩ | ⟨-, before⟩ := of_lookup_insert found
      · obtain old | new := List.mem_append.mp member
        · exact h.up _ (names_iff.mpr (.inr (buffers_of_mem old)))
        · rw [List.mem_singleton.mp new]
          exact up
      · exact h.up _ (names_iff.mpr (.inr (buffers_iff.mpr ⟨_, pending, before, b, member, rfl⟩)))

theorem trackRemoved (h : Carried p) (key identity : String) (kind : MediaStreamKind) :
    Carried (p.trackRemoved key identity kind) := by
  unfold MediaPool.trackRemoved
  split
  · exact h.of_fewer (fewer_removeTrack _ kind key)
  · split
    · exact h
    · next pending was =>
        refine h.fewer (fun other named => ?_) rfl
        obtain tracked | there := names_iff.mp named
        · exact names_iff.mpr (.inl tracked)
        · obtain ⟨of, left, found, b, member, same⟩ := buffers_iff.mp there
          refine names_iff.mpr (.inr (buffers_iff.mpr ?_))
          obtain ⟨rfl, rfl⟩ | ⟨-, before⟩ := of_lookup_insert found
          · exact ⟨_, pending, was, b, (List.mem_filter.mp member).1, same⟩
          · exact ⟨of, left, before, b, member, same⟩

theorem connectFinished (h : Carried p) (key : String) (attempt : ℕ)
    (result : Except TransportError ℕ) (now : ℕ) (takeOver : Except TransportError Unit)
    (untracked : ∀ entry connection, p.pool.lookup key = some entry →
      entry.state = .connecting attempt → (entry.members.isEmpty && !entry.isOwn) = false →
      result = .ok connection → p.ownConnectionKey ≠ some key → ∀ ownKey,
      leavesOwn ((p.installed key entry connection).clearDegraded key) now takeOver =
        some ownKey → ¬ hasTrack (mediaOf p) ownKey) :
    Carried (p.connectFinished key attempt result now takeOver) := by
  unfold MediaPool.connectFinished
  split
  · exact h.quiet (quiet_closeStray result)
  · next entry found =>
      split_ifs with differs unneeded
      · exact h.quiet (quiet_closeStray result)
      all_goals
        rw [not_not] at differs
        have unnamed := h.unnamed_of_state found (by rw [differs]; rfl)
      · exact ((h.removeEntry unnamed).quiet (quiet_clearDegraded key)).quiet
          (quiet_closeStray result)
      · cases result with
        | ok connection =>
            have cleared := quiet_clearDegraded (p := p.installed key entry connection) key
            refine ((h.installed key entry connection).quiet cleared).peerUp key now takeOver
              fun peer ownKey leaves => ?_
            rw [cleared.ownKey] at peer
            rw [cleared.media]
            exact untracked entry connection found differs (by simpa using unneeded) rfl peer
              ownKey leaves
        | error error =>
            have marked := quiet_markDegraded (p := p) key
            rw [← marked.media] at unnamed
            exact ((h.quiet marked).setUnnamed unnamed _).quiet (quiet_spawn _)

end Carried

/-- Where a connection marked as our own is lost, our own focus has no track that would stay
on it: it is to be connected anew, where it is another connection, or given up. -/
def ownSpared (p : MediaPool) (key : String) (generation : ℕ) : Bool :=
  match p.pool.lookup key, p.ownConnectionKey with
  | some entry, some ownKey =>
      !(entry.generation == generation && entry.state.isUp && entry.isOwn) ||
        if p.own.isNone then !hasTrack (mediaOf p) ownKey
        else ownKey == key || !names (mediaOf p) ownKey
  | _, _ => true

theorem ownSpared_of_down {key ownKey : String} {generation : ℕ} {entry : ManagedConnection}
    (spared : ownSpared p key generation) (found : p.pool.lookup key = some entry)
    (current : ¬ (decide (entry.generation ≠ generation) || !entry.state.isUp) = true)
    (is_own : entry.isOwn = true) (is_key : p.ownConnectionKey = some ownKey) :
    (p.own.isNone → ¬ hasTrack (mediaOf p) ownKey) ∧
      (p.own.isNone = false → key = ownKey ∨ ¬ names (mediaOf p) ownKey) := by
  obtain ⟨same, up⟩ : entry.generation = generation ∧ entry.state.isUp = true := by
    simpa using current
  rw [ownSpared, found, is_key] at spared
  simp only [same, up, is_own, beq_self_eq_true, Bool.and_true, Bool.not_true,
    Bool.false_or] at spared
  constructor
  · intro none_ tracked
    rw [if_pos none_, tracked] at spared
    cases spared
  · intro kept
    rw [if_neg (by simp [kept]), Bool.or_eq_true, beq_iff_eq, Bool.not_eq_true'] at spared
    obtain same | unnamed := spared
    · exact .inl same.symm
    · exact .inr (by simp [unnamed])

namespace Carried

theorem unnamed_lost (p : MediaPool) (key : String) :
    ¬ names (mediaOf ((((p.dropUnmappedOn key).dropPendingFrom key).retireTracks key).markDegraded
      key)) key := by
  rw [(quiet_markDegraded key).media]
  intro named
  obtain tracked | buffered := names_iff.mp named
  · exact untracked_retireTracks _ key tracked
  · rw [(fewer_retireTracks key).buffers] at buffered
    exact (buffers_dropPendingFrom buffered).1 rfl

theorem lost (h : Carried p) (key : String) :
    Carried ((((p.dropUnmappedOn key).dropPendingFrom key).retireTracks key).markDegraded key) :=
  ((((h.quiet (quiet_dropUnmappedOn key)).dropPendingFrom key).of_fewer
    (fewer_retireTracks key))).quiet (quiet_markDegraded key)

theorem ownKey_lost (p : MediaPool) (key : String) :
    ((((p.dropUnmappedOn key).dropPendingFrom key).retireTracks key).markDegraded
      key).ownConnectionKey = p.ownConnectionKey :=
  (quiet_markDegraded key).ownKey.trans (fewer_retireTracks key).ownKey

theorem names_lost {key other : String}
    (named : names (mediaOf ((((p.dropUnmappedOn key).dropPendingFrom key).retireTracks
      key).markDegraded key)) other) : names (mediaOf p) other := by
  rw [(quiet_markDegraded key).media] at named
  have before := names_dropPendingFrom ((fewer_retireTracks key).names named)
  rwa [(quiet_dropUnmappedOn key).media] at before

theorem connectionDown (h : Carried p) (key : String) (generation : ℕ) (message : String)
    (now : ℕ) (spared : ownSpared p key generation) :
    Carried (p.connectionDown key generation message now) := by
  have unnamed := unnamed_lost p key
  have retired := h.lost key
  have ownKey := ownKey_lost p key
  unfold MediaPool.connectionDown
  split
  · exact h
  · next entry found =>
      split_ifs with stale given is_own
      · exact h
      · -- our own focus is given up with its tracks still subscribed
        obtain ⟨is_own, none_⟩ := Bool.and_eq_true_iff.mp given
        refine giveUpOwn (dropPendingFrom (h.quiet (quiet_dropUnmappedOn key)) key) _ _
          fun other is_other tracked => ?_
        exact (ownSpared_of_down spared found stale is_own is_other).1 none_ tracked
      · have begun := quiet_startOwnLoss
          (p := (((p.dropUnmappedOn key).dropPendingFrom key).retireTracks key).markDegraded key)
          now
        refine (retired.quiet begun).spawnOwnAttempt 0 fun other is_other named => ?_
        rw [begun.ownKey, ownKey] at is_other
        rw [begun.media] at named
        have kept : p.own.isNone = false := by
          rw [is_own, Bool.true_and, Bool.not_eq_true] at given
          exact given
        obtain rfl | unnamedOther := (ownSpared_of_down spared found stale is_own is_other).2 kept
        · exact unnamed named
        · exact unnamedOther (names_lost named)
      · exact (retired.removeEntry unnamed).quiet (quiet_clearDegraded key)
      · exact (retired.setUnnamed unnamed _).quiet (quiet_spawn _)

theorem reconnected (h : Carried p) (key : String) (now : ℕ)
    (takeOver : Except TransportError Unit)
    (untracked : p.ownConnectionKey ≠ some key → ∀ ownKey,
      leavesOwn (p.clearDegraded key) now takeOver = some ownKey →
        ¬ hasTrack (mediaOf p) ownKey) :
    Carried (p.reconnected key now takeOver) := by
  unfold MediaPool.reconnected
  extract_lets ended
  have cleared := quiet_clearDegraded (p := ended) key
  refine Carried.quiet ?_ (quiet_reapplyConnectionConstraints key)
  by_cases is_own : p.ownConnectionKey = some key
  · have resumed : Quiet p ended := by
      unfold ended
      rw [if_pos is_own]
      exact quiet_endOwnLoss
    refine ((h.quiet resumed).quiet cleared).peerUp key now takeOver fun peer => ?_
    rw [cleared.ownKey, resumed.ownKey] at peer
    exact absurd is_own peer
  · have same : ended = p := if_neg is_own
    rw [same] at cleared ⊢
    refine (h.quiet cleared).peerUp key now takeOver fun _ ownKey leaves => ?_
    rw [cleared.media]
    exact untracked is_own ownKey leaves

theorem ownConnectFinished (h : Carried p) (attempt : ℕ) (result : Except TransportError Unit)
    (now : ℕ) : Carried (p.ownConnectFinished attempt result now) := by
  unfold MediaPool.ownConnectFinished
  split
  · next key own is_key is_own =>
      split
      · split
        · split_ifs
          · exact h.quiet (quiet_spawn _)
          · exact h
        · exact h
      · next entry found =>
          obtain ⟨found, connecting⟩ := Option.filter_eq_some_iff.mp found
          -- an attempt was under way, so that nothing named the connection
          have unnamed : ∀ other, p.ownConnectionKey = some other → ¬ names (mediaOf p) other := by
            intro other is_other
            obtain rfl : key = other := Option.some.inj (is_key.symm.trans is_other)
            exact h.unnamed_of_state found (by rw [of_decide_eq_true connecting]; rfl)
          have untracked : ∀ other, p.ownConnectionKey = some other →
              ¬ hasTrack (mediaOf p) other :=
            fun other is_other tracked => unnamed other is_other (names_iff.mpr (.inl tracked))
          split
          · extract_lets q
            have up : Quiet p q := quiet_own _
            exact ((((h.quiet up).installed key entry own.connection).quiet quiet_endOwnLoss).quiet
              (quiet_clearDegraded key)).quiet (quiet_reapplyConnectionConstraints key)
          · split
            · split
              · exact h.giveUpOwn _ _ untracked
              · exact h.giveUpOwn _ _ untracked
              all_goals exact h.giveUpOwnBudget untracked
            · split
              · split
                · exact h.giveUpOwn _ _ untracked
                · have asked : Quiet p { p with own := some { own with
                      tokenRefetched := true, refetchNext := true } } := quiet_own _
                  refine (h.quiet asked).ownBackoff _ now fun other is_other => ?_
                  exact unnamed other is_other
              · exact h.giveUpOwn _ _ untracked
              all_goals exact h.ownBackoff _ now unnamed
  · exact h

theorem ownAttempt (h : Carried p) {attempt next : ℕ} {entry : ManagedConnection}
    (found : p.ownEntry = some entry) (waits : entry.state = .backoff attempt) :
    Carried (p.spawnOwnAttempt next) := by
  refine h.spawnOwnAttempt next fun key is_key => ?_
  rw [MediaPool.ownEntry, is_key] at found
  exact h.unnamed_of_state found (by rw [waits]; rfl)

theorem ownRetry (h : Carried p) (attempt now : ℕ) (takeOver : Except TransportError Unit)
    (untracked : ∀ key, leavesOwn p now takeOver = some key → ¬ hasTrack (mediaOf p) key) :
    Carried (p.ownRetry attempt now takeOver) := by
  unfold MediaPool.ownRetry
  extract_lets tried
  have tried' : Carried tried := h.tryFallback now takeOver untracked
  split_ifs with waits
  · obtain ⟨entry, found, waits⟩ := (Option.any_eq_true _ _).mp waits
    exact tried'.ownAttempt found (of_decide_eq_true waits)
  · exact tried'

theorem ownBudget (h : Carried p) (epoch : ℕ) : Carried (p.ownBudget epoch) := by
  unfold MediaPool.ownBudget
  split_ifs
  · extract_lets spent retried
    have same : Carried spent := h.of_media (by simp [mediaOf, spent])
    refine Carried.quiet (p := retried) ?_ (quiet_spawn _)
    unfold retried
    split
    · next attempt waits =>
        obtain ⟨entry, found, waits⟩ := Option.map_eq_some_iff.mp waits
        exact same.ownAttempt found waits
    · exact same
  · exact h

/-- The tracks of a member that leaves go back to the buffer, over the same connections. -/
theorem names_forgetMember {memberId key : String}
    (named : names (mediaOf (p.forgetMember memberId)) key) : names (mediaOf p) key := by
  rw [names_iff] at named ⊢
  obtain tracked | buffered := named
  · obtain ⟨s, pooled, found, same⟩ := hasTrack_iff.mp tracked
    exact .inl (hasTrack_iff.mpr ⟨s, pooled, (of_lookup_retain found).1, same⟩)
  · obtain ⟨identity, pending, found, b, member, same⟩ := buffers_iff.mp buffered
    have found : (p.pendingWith (p.memberIdentities.lookup memberId)
      (p.tracksOf memberId)).lookup identity = some pending := found
    unfold MediaPool.pendingWith at found
    split at found
    · split_ifs at found
      · exact .inr (buffers_iff.mpr ⟨identity, pending, found, b, member, same⟩)
      · obtain ⟨-, rfl⟩ | ⟨-, before⟩ := of_lookup_insert found
        · obtain old | new := List.mem_append.mp member
          · exact .inr (same ▸ buffers_of_mem old)
          · obtain ⟨e, kept, rfl⟩ := List.mem_map.mp new
            refine .inl (hasTrack_iff.mpr ⟨e.1, e.2, ?_, same⟩)
            exact lookup_eq_some_iff.mpr (List.mem_filter.mp kept).1
        · exact .inr (buffers_iff.mpr ⟨identity, pending, before, b, member, same⟩)
    · exact .inr (buffers_iff.mpr ⟨identity, pending, found, b, member, same⟩)

theorem forgetMember (h : Carried p) (memberId : String) : Carried (p.forgetMember memberId) :=
  h.fewer (fun _ named => names_forgetMember named) rfl

theorem forgetAll (h : Carried p) (departed : List String) :
    Carried (departed.foldl MediaPool.forgetMember p) := by
  induction departed generalizing p with
  | nil => exact h
  | cons memberId rest ih => exact ih (h.forgetMember memberId)

theorem addAll (h : Carried p) (memberId : String) (pending : List (MediaStreamKind × PooledTrack))
    (up : ∀ b ∈ pending, isUp (mediaOf p) b.2.connectionKey) :
    Carried (pending.foldl (fun p (kind, pooled) => p.addTrack memberId kind pooled) p) := by
  induction pending generalizing p with
  | nil => exact h
  | cons b rest ih =>
      obtain ⟨events, -, calm⟩ := addTrack_spec p memberId b.1 b.2
      refine ih (h.addTrack memberId b.1 (up b (.head _))) fun other there => ?_
      rw [isUp, show (mediaOf (p.addTrack memberId b.1 b.2)).pool = p.pool from calm.pool]
      exact up other (.tail _ there)

theorem flushTracks (h : Carried p) (memberId identity : String) :
    Carried (p.flushTracks memberId identity) := by
  unfold MediaPool.flushTracks
  refine Carried.addAll ?_ memberId _ fun b there => ?_
  · refine h.fewer (fun key named => ?_) rfl
    obtain tracked | buffered := names_iff.mp named
    · exact names_iff.mpr (.inl tracked)
    · obtain ⟨other, pending, found, rest⟩ := buffers_iff.mp buffered
      have before := (of_lookup_erase found).2
      exact names_iff.mpr (.inr (buffers_iff.mpr ⟨other, pending, before, rest⟩))
  · exact h.up _ (names_iff.mpr (.inr (buffers_of_mem there)))

theorem joinMember (h : Carried p) (member : JoinedMembership) : Carried (p.joinMember member) := by
  unfold MediaPool.joinMember
  split_ifs
  · exact h
  · unfold MediaPool.mapMember
    split
    · exact h.of_media rfl
    · next identity _ =>
        extract_lets mapped flagged
        have flushed : Carried mapped :=
          flushTracks (h.of_media rfl : Carried (MediaPool.mapIdentity
            { p with knownMembers := member.memberId :: p.knownMembers } member.memberId
              identity)) _ _
        have calm : Quiet mapped flagged := by
          unfold flagged
          split_ifs
          · exact quiet_emit fun _ => rfl
          · exact .refl mapped
        exact (flushed.quiet calm).quiet (quiet_flushKeys _ _)

theorem joinAll (h : Carried p) (snapshot : List JoinedMembership) :
    Carried (snapshot.foldl MediaPool.joinMember p) := by
  induction snapshot generalizing p with
  | nil => exact h
  | cons member rest ih => exact ih (h.joinMember member)

theorem applySnapshot (h : Carried p) (snapshot : List JoinedMembership) :
    Carried (p.applySnapshot snapshot) := by
  have joined := (h.forgetAll _ : Carried (p.forgetDeparted snapshot)).joinAll snapshot
  exact Carried.reconcilePool (joined.of_media rfl)

theorem adoptOwnConnection (h : Carried p) (key : String) (connection : ℕ) :
    Carried (p.adoptOwnConnection key connection) := by
  unfold MediaPool.adoptOwnConnection
  extract_lets generation q
  have taken : Carried q := h.of_media rfl
  exact (taken.setEntry fun _ => rfl).quiet (quiet_spawn _)

theorem connectOwn (h : Carried p) {key : String} (connection now : ℕ)
    (unnamed : ¬ names (mediaOf p) key)
    (ownUnnamed : ∀ ownKey, p.ownConnectionKey = some ownKey → ¬ names (mediaOf p) ownKey) :
    Carried (p.connectOwn key connection now) := by
  unfold MediaPool.connectOwn
  extract_lets q entered
  have taken : Carried q := h.of_media rfl
  have set : Carried entered := taken.setUnnamed unnamed _
  have begun := quiet_startOwnLoss (p := entered) now
  refine (set.quiet begun).spawnOwnAttempt 0 fun ownKey is_key => ?_
  rw [begun.ownKey] at is_key
  rw [begun.media]
  exact ownUnnamed ownKey is_key

theorem close (h : ∀ key, ¬ names (mediaOf p) key) : Carried p.close := by
  unfold MediaPool.close
  extract_lets q
  have emptied : Carried q := ⟨fun key named => absurd named (h key)⟩
  exact emptied.quiet (Quiet.foldl
    (fun _ (e : Sigma fun _ : String => ManagedConnection) => quiet_closeEntry e.2) _ _)

theorem setSignallingReachable (h : Carried p) (reachable : Bool) (now : ℕ)
    (takeOver : Except TransportError Unit)
    (untracked : reachable = true → ∀ key,
      leavesOwn { p with signallingReachable := true } now takeOver = some key →
        ¬ hasTrack (mediaOf p) key) :
    Carried (p.setSignallingReachable reachable now takeOver) := by
  unfold MediaPool.setSignallingReachable
  cases reachable with
  | true =>
      have set : Carried { p with signallingReachable := true } := h.of_media rfl
      exact set.tryFallback now takeOver (untracked rfl)
  | false => exact h.of_media rfl

end Carried

end

end MatrixRtc.PoolCarriage

import MatrixRtc.MediaPools

/-!
# What the calls of a media pool move

A call tells its owner of every stream it adds or removes, and leaves alone which identity
is whose: that changes where a member joins or leaves a snapshot, and nowhere else. Both
are shown of every operation, and put together along a call.
-/
namespace MatrixRtc.PoolMoves
open MemberEvents MediaTransports Tables MediaPools

/-- A stream of a member. -/
abbrev Stream := String × MediaStreamKind

/-- The streams of a host that was told of `events`. -/
def heard (streams : List Stream) : List PoolEvent → List Stream
  | [] => streams
  | .streamAdded memberId kind :: later => heard ((memberId, kind) :: streams) later
  | .streamRemoved memberId kind :: later =>
      heard (streams.filter (· != (memberId, kind))) later
  | _ :: later => heard streams later

theorem heard_append (streams : List Stream) (first later : List PoolEvent) :
    heard streams (first ++ later) = heard (heard streams first) later := by
  induction first generalizing streams with
  | nil => rfl
  | cons event rest ih => cases event <;> exact ih _

theorem heard_congr {a b : List Stream} (same : ∀ s, s ∈ a ↔ s ∈ b) (events : List PoolEvent) :
    ∀ s, s ∈ heard a events ↔ s ∈ heard b events := by
  induction events generalizing a b with
  | nil => exact same
  | cons event rest ih =>
      cases event with
      | streamAdded memberId kind =>
          exact ih fun s => by rw [List.mem_cons, List.mem_cons, same s]
      | streamRemoved memberId kind =>
          exact ih fun s => by rw [List.mem_filter, List.mem_filter, same s]
      | _ => exact ih same

/-- The events since `p` say how the streams of `q` came from those of `p`. -/
def Told (p q : MediaPool) : Prop :=
  ∃ events, q.out = p.out ++ events ∧ ∀ s, s ∈ q.tracks ↔ s ∈ heard p.tracks.keys events

/-- Who is a member, and whose each identity is. -/
structure Attribution where
  transports : List MediaTransport
  ownMemberId : String
  identityMap : Table String String
  memberIdentities : Table String String
  knownMembers : List String
  membersSnapshot : List JoinedMembership

def attributionOf (p : MediaPool) : Attribution :=
  { transports := p.transports
    ownMemberId := p.ownMemberId
    identityMap := p.identityMap
    memberIdentities := p.memberIdentities
    knownMembers := p.knownMembers
    membersSnapshot := p.membersSnapshot }

/-- The media there is, and what it comes over. -/
structure Media where
  tracks : Table (String × MediaStreamKind) PooledTrack
  pendingTracks : Table String (List (MediaStreamKind × PooledTrack))
  pool : Table String ManagedConnection
  ownConnectionKey : Option String

def mediaOf (p : MediaPool) : Media :=
  { tracks := p.tracks
    pendingTracks := p.pendingTracks
    pool := p.pool
    ownConnectionKey := p.ownConnectionKey }

/-- What an operation does that is not about who is a member. -/
structure Moves (p q : MediaPool) : Prop where
  attribution : attributionOf q = attributionOf p
  unmapped : ∀ identity, identity ∈ q.unmapped →
    identity ∈ p.unmapped ∨ p.identityMap.lookup identity = none
  attributed : ∀ s, s ∈ q.tracks →
    s ∈ p.tracks ∨ ∃ identity, p.identityMap.lookup identity = some s.1
  told : Told p q

/-- What an operation does that is not about media either. -/
structure Quiet (p q : MediaPool) : Prop extends Moves p q where
  media : mediaOf q = mediaOf p

section
variable {p q r : MediaPool}

theorem Told.refl (p : MediaPool) : Told p p :=
  ⟨[], (List.append_nil _).symm, fun _ => AList.mem_keys⟩

theorem Told.trans (first : Told p q) (second : Told q r) : Told p r := by
  obtain ⟨events, out, streams⟩ := first
  obtain ⟨later, out', streams'⟩ := second
  refine ⟨events ++ later, by rw [out', out, List.append_assoc], fun s => ?_⟩
  rw [streams' s, heard_append]
  exact heard_congr (fun t => by rw [← AList.mem_keys, streams t]) later s

theorem Told.of_same (tracks : q.tracks = p.tracks) (out : q.out = p.out) : Told p q :=
  ⟨[], by rw [out, List.append_nil], fun s => by rw [tracks]; exact AList.mem_keys⟩

namespace Moves

theorem mapping (h : Moves p q) : q.identityMap = p.identityMap :=
  congrArg Attribution.identityMap h.attribution

theorem identities (h : Moves p q) : q.memberIdentities = p.memberIdentities :=
  congrArg Attribution.memberIdentities h.attribution

theorem known (h : Moves p q) : q.knownMembers = p.knownMembers :=
  congrArg Attribution.knownMembers h.attribution

theorem transports (h : Moves p q) : q.transports = p.transports :=
  congrArg Attribution.transports h.attribution

theorem refl (p : MediaPool) : Moves p p :=
  ⟨rfl, fun _ there => .inl there, fun _ there => .inl there, Told.refl p⟩

theorem trans (first : Moves p q) (second : Moves q r) : Moves p r where
  attribution := second.attribution.trans first.attribution
  unmapped identity there := by
    obtain before | none_ := second.unmapped identity there
    · exact first.unmapped identity before
    · exact .inr (first.mapping ▸ none_)
  attributed s there := by
    obtain before | mapped := second.attributed s there
    · exact first.attributed s before
    · exact .inr (first.mapping ▸ mapped)
  told := first.told.trans second.told

theorem of_same (attribution : attributionOf q = attributionOf p)
    (unmapped : q.unmapped = p.unmapped) (tracks : q.tracks = p.tracks) (out : q.out = p.out) :
    Moves p q :=
  ⟨attribution, fun _ there => .inl (unmapped ▸ there), fun _ there => .inl (tracks ▸ there),
    Told.of_same tracks out⟩

theorem foldl {α : Type} {f : MediaPool → α → MediaPool} (each : ∀ p x, Moves p (f p x))
    (xs : List α) (p : MediaPool) : Moves p (xs.foldl f p) := by
  induction xs generalizing p with
  | nil => exact .refl p
  | cons x rest ih => exact (each p x).trans (ih (f p x))

end Moves

namespace Quiet

theorem pool (h : Quiet p q) : q.pool = p.pool := congrArg Media.pool h.media

theorem ownKey (h : Quiet p q) : q.ownConnectionKey = p.ownConnectionKey :=
  congrArg Media.ownConnectionKey h.media

theorem refl (p : MediaPool) : Quiet p p := ⟨.refl p, rfl⟩

theorem trans (first : Quiet p q) (second : Quiet q r) : Quiet p r :=
  ⟨first.toMoves.trans second.toMoves, second.media.trans first.media⟩

theorem of_same (attribution : attributionOf q = attributionOf p)
    (unmapped : q.unmapped = p.unmapped) (media : mediaOf q = mediaOf p)
    (out : q.out = p.out) : Quiet p q :=
  ⟨.of_same attribution unmapped (congrArg Media.tracks media) out, media⟩

theorem foldl {α : Type} {f : MediaPool → α → MediaPool} (each : ∀ p x, Quiet p (f p x))
    (xs : List α) (p : MediaPool) : Quiet p (xs.foldl f p) := by
  induction xs generalizing p with
  | nil => exact .refl p
  | cons x rest ih => exact (each p x).trans (ih (f p x))

end Quiet

theorem quiet_emit {event : PoolEvent} (other : ∀ streams, heard streams [event] = streams) :
    Quiet p (p.emit event) where
  attribution := rfl
  unmapped _ there := .inl there
  attributed _ there := .inl there
  told := ⟨[event], rfl, fun s => by rw [other]; exact AList.mem_keys⟩
  media := rfl

theorem quiet_spawn (task : Spawned) : Quiet p (p.spawn task) := .of_same rfl rfl rfl rfl

theorem quiet_applyConstraintsNow (memberId : String) (kind : MediaStreamKind) :
    Quiet p (p.applyConstraintsNow memberId kind) := by
  unfold MediaPool.applyConstraintsNow
  split
  · split
    · exact quiet_spawn _
    · exact .refl p
    · exact .refl p
  · exact .refl p

theorem quiet_reapplyConnectionConstraints (key : String) :
    Quiet p (p.reapplyConnectionConstraints key) := by
  unfold MediaPool.reapplyConnectionConstraints
  split
  · exact .refl p
  · next entry =>
      refine Quiet.foldl (fun p stream => ?_) _ p
      split_ifs
      · exact quiet_applyConstraintsNow _ _
      · exact .refl p

theorem quiet_unmapped {unmapped : Table String String}
    (fewer : ∀ identity ∈ unmapped, identity ∈ p.unmapped) :
    Quiet p { p with unmapped := unmapped } :=
  ⟨⟨rfl, fun identity there => .inl (fewer identity there), fun _ there => .inl there,
    Told.of_same rfl rfl⟩, rfl⟩

theorem quiet_dropUnmappedOn (key : String) : Quiet p (p.dropUnmappedOn key) := by
  refine quiet_unmapped fun identity there => ?_
  obtain ⟨on, found⟩ := Option.isSome_iff_exists.mp (AList.lookup_isSome.mpr there)
  exact AList.lookup_isSome.mp (Option.isSome_of_mem (of_lookup_retain found).1)

theorem quiet_markDegraded (key : String) : Quiet p (p.markDegraded key) := by
  unfold MediaPool.markDegraded
  split_ifs
  · exact .refl p
  · extract_lets wasClear q r
    have keyed : Quiet p q := .of_same rfl rfl rfl rfl
    refine (keyed.trans (?_ : Quiet q r)).trans (quiet_emit fun _ => rfl)
    unfold r
    split_ifs
    · exact quiet_emit fun _ => rfl
    · exact .refl q

theorem quiet_clearDegraded (key : String) : Quiet p (p.clearDegraded key) := by
  unfold MediaPool.clearDegraded
  split_ifs
  · extract_lets q r
    have unkeyed : Quiet p q := .of_same rfl rfl rfl rfl
    refine (unkeyed.trans (?_ : Quiet q r)).trans (quiet_emit fun _ => rfl)
    unfold r
    split_ifs
    · exact quiet_emit fun _ => rfl
    · exact .refl q
  · exact .refl p

theorem quiet_closeEntry (entry : ManagedConnection) : Quiet p (p.closeEntry entry) := by
  unfold MediaPool.closeEntry
  split
  · exact quiet_spawn _
  · exact .refl p
  · exact .refl p

theorem quiet_closeStray (result : Except TransportError ℕ) : Quiet p (p.closeStray result) := by
  cases result with
  | ok connection => exact quiet_spawn _
  | error error => exact .refl p

theorem quiet_own (own : Option OwnRecovery) : Quiet p { p with own := own } :=
  .of_same rfl rfl rfl rfl

theorem quiet_startOwnLoss (now : ℕ) : Quiet p (p.startOwnLoss now) := by
  unfold MediaPool.startOwnLoss
  split
  · next key own _ _ =>
      split_ifs with lost
      · exact .refl p
      · extract_lets epoch timed budgeted armed
        have begun : Quiet p budgeted := (quiet_own _).trans (quiet_spawn _)
        refine (begun.trans (?_ : Quiet budgeted armed)).trans (quiet_markDegraded key)
        unfold armed
        split_ifs
        · exact quiet_spawn _
        · exact .refl budgeted
  · exact .refl p

theorem quiet_endOwnLoss : Quiet p p.endOwnLoss := by
  unfold MediaPool.endOwnLoss
  split
  · exact .refl p
  · extract_lets q
    have forgotten : Quiet p q := .of_same rfl rfl rfl rfl
    split_ifs
    · exact forgotten.trans (quiet_own _)
    · exact forgotten

theorem quiet_muted (identity : String) (kind : MediaStreamKind) (muted : Bool) :
    Quiet p (p.muted identity kind muted) := by
  unfold MediaPool.muted
  split
  · exact quiet_emit fun _ => rfl
  · exact .refl p

theorem quiet_remoteJoined (key identity : String) : Quiet p (p.remoteJoined key identity) := by
  unfold MediaPool.remoteJoined
  split_ifs with mapped
  · exact .refl p
  · rw [Bool.not_eq_true, Option.isSome_eq_false_iff, Option.isNone_iff_eq_none] at mapped
    refine Quiet.trans (q := { p with unmapped := p.unmapped.insert identity key }) ?_
      (quiet_emit fun _ => rfl)
    refine ⟨⟨rfl, fun other there => ?_, fun _ there => .inl there, Told.of_same rfl rfl⟩, rfl⟩
    obtain rfl | before := AList.mem_insert _ |>.mp there
    · exact .inr mapped
    · exact .inl before

theorem quiet_remoteLeft (identity : String) : Quiet p (p.remoteLeft identity) := by
  refine Quiet.trans (q := { p with unmapped := p.unmapped.erase identity }) ?_
    (.of_same rfl rfl rfl rfl)
  exact quiet_unmapped fun other there => (AList.mem_erase.mp there).2

theorem quiet_trackNotEncrypted (identity : String) : Quiet p (p.trackNotEncrypted identity) := by
  unfold MediaPool.trackNotEncrypted
  extract_lets q
  have noted : Quiet p q := .of_same rfl rfl rfl rfl
  split
  · exact noted.trans (quiet_emit fun _ => rfl)
  · exact noted

theorem quiet_encryptionStateChanged (identity : String) (state : FrameEncryptionState) :
    Quiet p (p.encryptionStateChanged identity state) := by
  unfold MediaPool.encryptionStateChanged
  split
  · exact quiet_emit fun _ => rfl
  · exact .refl p

theorem quiet_reconnecting (key : String) (now : ℕ) : Quiet p (p.reconnecting key now) := by
  unfold MediaPool.reconnecting
  extract_lets q
  split_ifs
  · exact (quiet_markDegraded key).trans (quiet_startOwnLoss now)
  · exact quiet_markDegraded key

theorem quiet_keyImported (identity : String) (keyIndex : UInt8) :
    Quiet p (p.keyImported identity keyIndex) := by
  unfold MediaPool.keyImported
  split
  · exact quiet_emit fun _ => rfl
  · extract_lets pending
    split_ifs
    · exact .refl p
    · exact .of_same rfl rfl rfl rfl

theorem quiet_announceStream (memberId : String) (kind : MediaStreamKind) :
    Quiet (p.emit (.streamAdded memberId kind)) (p.announceStream memberId kind) := by
  unfold MediaPool.announceStream
  extract_lets q
  split_ifs
  · exact quiet_applyConstraintsNow memberId kind
  · exact .refl q

/-- Adding a track puts it in its place, with the events that make its stream the host's. -/
theorem addTrack_spec (p : MediaPool) (memberId : String) (kind : MediaStreamKind)
    (pooled : PooledTrack) :
    ∃ events, (∀ s, s ∈ p.tracks.insert (memberId, kind) pooled ↔ s ∈ heard p.tracks.keys events) ∧
      Quiet
        { p with
          tracks := p.tracks.insert (memberId, kind) pooled
          out := p.out ++ events }
        (p.addTrack memberId kind pooled) := by
  unfold MediaPool.addTrack
  cases was : p.tracks.lookup (memberId, kind) with
  | some old =>
      have there : (memberId, kind) ∈ p.tracks := AList.lookup_isSome.mp (Option.isSome_of_mem was)
      dsimp only
      split_ifs
      · refine ⟨[], fun s => ?_, .of_same rfl rfl rfl (List.append_nil _).symm⟩
        rw [AList.mem_insert]
        exact or_iff_right_of_imp fun same => same ▸ there
      · refine ⟨[.streamRemoved memberId kind, .streamAdded memberId kind], fun s => ?_, ?_⟩
        · rw [AList.mem_insert]
          simp only [heard, List.mem_cons, List.mem_filter, AList.mem_keys, bne_iff_ne, ne_eq]
          by_cases same : s = (memberId, kind) <;> simp [same]
        · have placed := quiet_announceStream (p := MediaPool.emit
            { p with tracks := p.tracks.insert (memberId, kind) pooled }
            (.streamRemoved memberId kind)) memberId kind
          have inOrder : p.out ++ [.streamRemoved memberId kind, .streamAdded memberId kind] =
              p.out ++ [.streamRemoved memberId kind] ++ [.streamAdded memberId kind] := by simp
          rw [inOrder]
          exact placed
  | none =>
      have placed := quiet_announceStream
        (p := { p with tracks := p.tracks.insert (memberId, kind) pooled }) memberId kind
      refine ⟨[.streamAdded memberId kind], fun s => ?_, placed⟩
      rw [AList.mem_insert, heard, heard, List.mem_cons, AList.mem_keys]

theorem moves_addTrack {memberId identity : String} (kind : MediaStreamKind) (pooled : PooledTrack)
    (mapped : p.identityMap.lookup identity = some memberId) :
    Moves p (p.addTrack memberId kind pooled) := by
  obtain ⟨events, streams, quiet⟩ := addTrack_spec p memberId kind pooled
  refine Moves.trans
    (q := { p with
      tracks := p.tracks.insert (memberId, kind) pooled
      out := p.out ++ events })
    ⟨rfl, fun _ there => .inl there, fun s there => ?_, events, rfl, streams⟩ quiet.toMoves
  obtain rfl | before := AList.mem_insert _ |>.mp there
  · exact .inr ⟨identity, mapped⟩
  · exact .inl before

theorem moves_removeTrack (memberId : String) (kind : MediaStreamKind) (key : String) :
    Moves p (p.removeTrack memberId kind key) := by
  unfold MediaPool.removeTrack
  split_ifs
  · refine ⟨rfl, fun _ there => .inl there, fun s there => .inl (AList.mem_erase.mp there).2, ?_⟩
    refine ⟨[.streamRemoved memberId kind], rfl, fun s => ?_⟩
    rw [heard, heard, List.mem_filter, AList.mem_keys, bne_iff_ne, and_comm]
    exact AList.mem_erase
  · exact .refl p

theorem moves_retireTracks (key : String) : Moves p (p.retireTracks key) :=
  Moves.foldl (fun _ (stream : Stream) => moves_removeTrack stream.1 stream.2 key) _ p

theorem moves_dropPendingFrom (key : String) : Moves p (p.dropPendingFrom key) :=
  .of_same rfl rfl rfl rfl

theorem moves_trackAdded (key identity : String) (kind : MediaStreamKind) (track : ℕ) :
    Moves p (p.trackAdded key identity kind track) := by
  unfold MediaPool.trackAdded
  split
  · next memberId mapped => exact moves_addTrack kind _ mapped
  · exact .of_same rfl rfl rfl rfl

theorem moves_trackRemoved (key identity : String) (kind : MediaStreamKind) :
    Moves p (p.trackRemoved key identity kind) := by
  unfold MediaPool.trackRemoved
  split
  · exact moves_removeTrack _ kind key
  · split
    · exact .refl p
    · exact .of_same rfl rfl rfl rfl

theorem moves_setEntry (key : String) (entry : ManagedConnection) :
    Moves p (p.setEntry key entry) := .of_same rfl rfl rfl rfl

theorem moves_removeEntry (key : String) : Moves p (p.removeEntry key) :=
  .of_same rfl rfl rfl rfl

theorem moves_startConnect (key : String) (attempt : ℕ) : Moves p (p.startConnect key attempt) := by
  unfold MediaPool.startConnect
  split
  · exact .refl p
  · split_ifs
    · exact .refl p
    · exact (moves_setEntry key _).trans (quiet_spawn _).toMoves

theorem moves_openPeer (key : String) (backend : MediaTransport) (members : List String) :
    Moves p (p.openPeer key backend members) := by
  unfold MediaPool.openPeer
  split_ifs
  · exact .refl p
  · exact (moves_setEntry key _).trans (moves_startConnect key 0)

theorem moves_reconcilePool : Moves p p.reconcilePool :=
  Moves.trans (q := p.regroup) (.of_same rfl rfl rfl rfl)
    (Moves.foldl (fun _ (e : Sigma fun _ : String => MediaTransport × List String) =>
      moves_openPeer e.1 e.2.1 e.2.2) _ _)

theorem moves_scheduleRetry (key : String) (attempt delay : ℕ) :
    Moves p (p.scheduleRetry key attempt delay) := (quiet_spawn _).toMoves

theorem moves_retryConnect (key : String) (attempt : ℕ) : Moves p (p.retryConnect key attempt) := by
  unfold MediaPool.retryConnect
  split
  · exact .refl p
  · split_ifs
    · exact .refl p
    · exact (moves_removeEntry key).trans (quiet_clearDegraded key).toMoves
    · exact moves_startConnect key attempt

theorem moves_closeIfIdle (key : String) (idleGeneration : ℕ) :
    Moves p (p.closeIfIdle key idleGeneration) := by
  unfold MediaPool.closeIfIdle
  split_ifs
  · extract_lets dropped closed
    have gone : Moves p dropped := (quiet_dropUnmappedOn key).toMoves.trans <|
      (moves_dropPendingFrom key).trans (moves_removeEntry key)
    refine (gone.trans (?_ : Moves dropped closed)).trans (quiet_clearDegraded key).toMoves
    unfold closed
    split
    · exact (quiet_closeEntry _).toMoves
    · exact .refl dropped
  · exact .refl p

theorem moves_installed (key : String) (entry : ManagedConnection) (connection : ℕ) :
    Moves p (p.installed key entry connection) := .of_same rfl rfl rfl rfl

theorem moves_spawnOwnAttempt (attempt : ℕ) : Moves p (p.spawnOwnAttempt attempt) := by
  unfold MediaPool.spawnOwnAttempt
  split
  · extract_lets q r
    refine Moves.trans (q := r) ?_ (quiet_spawn _).toMoves
    unfold r
    split <;> exact .of_same rfl rfl rfl rfl
  · exact .refl p

theorem moves_giveUpOwn (reason : OwnConnectionLoss) (message : String) :
    Moves p (p.giveUpOwn reason message) := by
  unfold MediaPool.giveUpOwn
  split
  · exact .refl p
  · next key _ =>
      extract_lets q dropped cleared
      have gone : Moves p dropped := Moves.trans (q := q) (.of_same rfl rfl rfl rfl) <|
        (quiet_dropUnmappedOn key).toMoves.trans <|
          (moves_dropPendingFrom key).trans (moves_removeEntry key)
      have lost : Moves dropped { dropped with own := none, ownLost := true } :=
        .of_same rfl rfl rfl rfl
      refine ((gone.trans lost).trans (quiet_clearDegraded key).toMoves).trans ?_
      exact (quiet_emit fun _ => rfl).toMoves.trans (quiet_emit fun _ => rfl).toMoves

theorem moves_giveUpOwnBudget : Moves p p.giveUpOwnBudget := by
  unfold MediaPool.giveUpOwnBudget
  split
  · exact .refl p
  · exact moves_giveUpOwn _ _

theorem moves_ownBackoff (attempt now : ℕ) : Moves p (p.ownBackoff attempt now) := by
  unfold MediaPool.ownBackoff
  split
  · exact .refl p
  · extract_lets q left delay
    refine Moves.trans (q := q) ?_ (quiet_spawn _).toMoves
    unfold q
    split
    · exact moves_setEntry _ _
    · exact .refl p

theorem moves_movedTo (ownKey target : String) (own : OwnRecovery) (transport : RtcTransport) :
    Moves p (p.movedTo ownKey target own transport) := by
  unfold MediaPool.movedTo
  extract_lets up gone taken renamed told opened
  have toGone : Moves p gone := Moves.trans (q := up) (.of_same rfl rfl rfl rfl) <|
    (moves_removeEntry ownKey).trans <|
      (quiet_dropUnmappedOn ownKey).toMoves.trans (moves_dropPendingFrom ownKey)
  have toTaken : Moves gone taken := by
    unfold taken
    split
    · exact moves_setEntry target _
    · exact .refl gone
  have toRenamed : Moves taken renamed :=
    Moves.trans (q := { taken with ownConnectionKey := some target }) (.of_same rfl rfl rfl rfl)
      quiet_endOwnLoss.toMoves
  have toTold : Moves renamed told :=
    (quiet_emit fun _ => rfl).toMoves.trans (quiet_emit fun _ => rfl).toMoves
  have toOpened : Moves p opened :=
    (((toGone.trans toTaken).trans toRenamed).trans toTold).trans moves_reconcilePool
  split_ifs
  · exact toOpened.trans (quiet_clearDegraded ownKey).toMoves
  · exact toOpened

theorem moves_fallBack (ownKey target : String) (takeOver : Except TransportError Unit) :
    Moves p (p.fallBack ownKey target takeOver) := by
  unfold MediaPool.fallBack
  split
  · split_ifs
    · split
      · exact .of_same rfl rfl rfl rfl
      · exact moves_movedTo ownKey target _ _
    · exact .refl p
  · exact .refl p

theorem moves_tryFallback (now : ℕ) (takeOver : Except TransportError Unit) :
    Moves p (p.tryFallback now takeOver) := by
  unfold MediaPool.tryFallback
  split
  · exact .refl p
  · split_ifs
    · exact moves_fallBack _ _ takeOver
    · exact .of_same rfl rfl rfl rfl

theorem moves_peerUp (key : String) (now : ℕ) (takeOver : Except TransportError Unit) :
    Moves p (p.peerUp key now takeOver) := by
  unfold MediaPool.peerUp
  split_ifs
  · exact .refl p
  · exact moves_tryFallback now takeOver

theorem moves_connectFinished (key : String) (attempt : ℕ) (result : Except TransportError ℕ)
    (now : ℕ) (takeOver : Except TransportError Unit) :
    Moves p (p.connectFinished key attempt result now takeOver) := by
  unfold MediaPool.connectFinished
  split
  · exact (quiet_closeStray result).toMoves
  · next entry _ =>
      split_ifs
      · exact (quiet_closeStray result).toMoves
      · exact ((moves_removeEntry key).trans (quiet_clearDegraded key).toMoves).trans
          (quiet_closeStray result).toMoves
      · cases result with
        | ok connection =>
            exact ((moves_installed key entry connection).trans
              (quiet_clearDegraded key).toMoves).trans (moves_peerUp key now takeOver)
        | error error =>
            exact ((quiet_markDegraded key).toMoves.trans (moves_setEntry key _)).trans
              (moves_scheduleRetry key _ _)

theorem moves_connectionDown (key : String) (generation : ℕ) (message : String) (now : ℕ) :
    Moves p (p.connectionDown key generation message now) := by
  have toDropped : Moves p ((p.dropUnmappedOn key).dropPendingFrom key) :=
    (quiet_dropUnmappedOn key).toMoves.trans (moves_dropPendingFrom key)
  have toRetired := (toDropped.trans (moves_retireTracks key)).trans
    (quiet_markDegraded key).toMoves
  unfold MediaPool.connectionDown
  split
  · exact .refl p
  · split_ifs
    · exact .refl p
    · exact toDropped.trans (moves_giveUpOwn _ _)
    · exact (toRetired.trans (quiet_startOwnLoss now).toMoves).trans (moves_spawnOwnAttempt 0)
    · exact (toRetired.trans (moves_removeEntry key)).trans (quiet_clearDegraded key).toMoves
    · exact (toRetired.trans (moves_setEntry key _)).trans (moves_scheduleRetry key _ _)

theorem moves_reconnected (key : String) (now : ℕ) (takeOver : Except TransportError Unit) :
    Moves p (p.reconnected key now takeOver) := by
  unfold MediaPool.reconnected
  extract_lets ended
  have toEnded : Moves p ended := by
    unfold ended
    split_ifs
    · exact quiet_endOwnLoss.toMoves
    · exact .refl p
  exact ((toEnded.trans (quiet_clearDegraded key).toMoves).trans
    (moves_peerUp key now takeOver)).trans (quiet_reapplyConnectionConstraints key).toMoves

theorem moves_handleConnectionEvent (key : String) (event : ConnectionEvent) (now : ℕ)
    (takeOver : Except TransportError Unit) :
    Moves p (p.handleConnectionEvent key event now takeOver) := by
  cases event with
  | remoteJoined identity => exact (quiet_remoteJoined key identity).toMoves
  | remoteLeft identity => exact (quiet_remoteLeft identity).toMoves
  | trackAdded identity kind track => exact moves_trackAdded key identity kind track
  | trackRemoved identity kind => exact moves_trackRemoved key identity kind
  | trackMuted identity kind => exact (quiet_muted identity kind true).toMoves
  | trackUnmuted identity kind => exact (quiet_muted identity kind false).toMoves
  | activeSpeakers speakers => exact (quiet_emit fun _ => rfl).toMoves
  | encryptionStateChanged identity state =>
      exact (quiet_encryptionStateChanged identity state).toMoves
  | trackNotEncrypted identity kind => exact (quiet_trackNotEncrypted identity).toMoves
  | reconnecting => exact (quiet_reconnecting key now).toMoves
  | reconnected => exact moves_reconnected key now takeOver
  | closed message => exact moves_connectionDown key _ message now

theorem moves_ownConnectFinished (attempt : ℕ) (result : Except TransportError Unit) (now : ℕ) :
    Moves p (p.ownConnectFinished attempt result now) := by
  unfold MediaPool.ownConnectFinished
  split
  · next key own _ is_own =>
      split
      · split
        · split_ifs
          · exact (quiet_spawn _).toMoves
          · exact .refl p
        · exact .refl p
      · next entry _ =>
          split
          · extract_lets q
            have up : Moves p q := (quiet_own _).toMoves
            exact ((up.trans (moves_installed key entry _)).trans quiet_endOwnLoss.toMoves).trans <|
              (quiet_clearDegraded key).toMoves.trans
                (quiet_reapplyConnectionConstraints key).toMoves
          · split
            · split
              · exact moves_giveUpOwn _ _
              · exact moves_giveUpOwn _ _
              all_goals exact moves_giveUpOwnBudget
            · split
              · split
                · exact moves_giveUpOwn _ _
                · exact (quiet_own _).toMoves.trans (moves_ownBackoff _ now)
              · exact moves_giveUpOwn _ _
              all_goals exact moves_ownBackoff _ now
  · exact .refl p

theorem moves_ownRetry (attempt now : ℕ) (takeOver : Except TransportError Unit) :
    Moves p (p.ownRetry attempt now takeOver) := by
  unfold MediaPool.ownRetry
  extract_lets tried
  have toTried : Moves p tried := moves_tryFallback now takeOver
  split_ifs
  · exact toTried.trans (moves_spawnOwnAttempt attempt)
  · exact toTried

theorem moves_ownBudget (epoch : ℕ) : Moves p (p.ownBudget epoch) := by
  unfold MediaPool.ownBudget
  split_ifs
  · extract_lets spent retried
    refine Moves.trans (q := retried) (.trans (q := spent) (.of_same rfl rfl rfl rfl) ?_)
      (quiet_spawn _).toMoves
    unfold retried
    split
    · exact moves_spawnOwnAttempt _
    · exact .refl spent
  · exact .refl p

theorem moves_setSignallingReachable (reachable : Bool) (now : ℕ)
    (takeOver : Except TransportError Unit) :
    Moves p (p.setSignallingReachable reachable now takeOver) := by
  unfold MediaPool.setSignallingReachable
  extract_lets q
  have set : Moves p q := .of_same rfl rfl rfl rfl
  split_ifs
  · exact set.trans (moves_tryFallback now takeOver)
  · exact set

theorem moves_handle (message : Message) (now : ℕ) (takeOver : Except TransportError Unit) :
    Moves p (p.handle message now takeOver) := by
  unfold MediaPool.handle
  cases message with
  | connection key generation event =>
      dsimp only
      split_ifs
      · exact moves_handleConnectionEvent key event now takeOver
      · exact .refl p
  | connectionEnded key generation => exact moves_connectionDown key generation _ now
  | connectFinished key attempt result =>
      exact moves_connectFinished key attempt result now takeOver
  | retryConnect key attempt => exact moves_retryConnect key attempt
  | closeIfIdle key idleGeneration => exact moves_closeIfIdle key idleGeneration
  | applyConstraints memberId kind generation =>
      dsimp only
      split_ifs
      · exact (quiet_applyConstraintsNow memberId kind).toMoves
      · exact .refl p
  | ownConnectFinished attempt result => exact moves_ownConnectFinished attempt result now
  | ownRetry attempt => exact moves_ownRetry attempt now takeOver
  | ownBudget epoch => exact moves_ownBudget epoch
  | ownFinalAttemptExpired epoch =>
      dsimp only
      split_ifs
      · exact moves_giveUpOwnBudget
      · exact .refl p
  | ownFallback epoch =>
      dsimp only
      split_ifs
      · exact moves_tryFallback now takeOver
      · exact .refl p

theorem moves_connectOwn (key : String) (connection now : ℕ) :
    Moves p (p.connectOwn key connection now) := by
  unfold MediaPool.connectOwn
  extract_lets q entered
  have toEntered : Moves p entered :=
    Moves.trans (q := q) (.of_same rfl rfl rfl rfl) (moves_setEntry key _)
  exact (toEntered.trans (quiet_startOwnLoss now).toMoves).trans (moves_spawnOwnAttempt 0)

theorem moves_close : Moves p p.close :=
  Moves.trans
    (q := { p with
      closed := true
      own := p.own.map fun own => { own with epoch := own.epoch + 1, lostSince := none }
      pool := ∅ })
    (.of_same rfl rfl rfl rfl) 
    (Moves.foldl (fun _ (e : Sigma fun _ : String => ManagedConnection) =>
      (quiet_closeEntry e.2).toMoves) _ _)

theorem moves_perform {input : Input} (other : ∀ snapshot, input.call ≠ .applySnapshot snapshot) :
    Moves p (p.perform input) := by
  unfold MediaPool.perform
  cases call : input.call with
  | applySnapshot snapshot => exact absurd call (other snapshot)
  | adoptOwnConnection key connection => exact .of_same rfl rfl rfl rfl
  | connectOwn key connection => exact moves_connectOwn key connection input.now
  | keyImported identity keyIndex => exact (quiet_keyImported identity keyIndex).toMoves
  | setConstraints memberId kind constraints => exact .of_same rfl rfl rfl rfl
  | setSignallingReachable reachable =>
      exact moves_setSignallingReachable reachable input.now input.takeOver
  | handle message => exact moves_handle message input.now input.takeOver
  | close => exact moves_close

end

end MatrixRtc.PoolMoves

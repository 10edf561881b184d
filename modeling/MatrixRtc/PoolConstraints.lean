import MatrixRtc.PoolMembers
import MatrixRtc.PoolSteps

/-!
# What a pool tells its connections of constraints

Constraints are told to the first connection that lists the member, under the identity that
the member is mapped to. A call of the pool tells of streams as they are stored, whatever it
is, and a snapshot tells only of the members that it brings.
-/
namespace MatrixRtc.PoolConstraints
open MemberEvents MediaTransports Tables MediaPools PoolMoves PoolMembers PoolSteps

/-- The connection of an entry that is up. -/
def connectionOf (entry : ManagedConnection) : Option ℕ :=
  match entry.state with
  | .up connection => some connection
  | .connecting _ | .backoff _ => none

/-- The connection that a member's constraints are told to. -/
def target (p : MediaPool) (memberId : String) : Option ℕ :=
  (p.pool.entries.find? fun e => e.2.members.contains memberId).bind fun e => connectionOf e.2

/-- What `apply_constraints_now` starts. -/
def pushes (p : MediaPool) (memberId : String) (kind : MediaStreamKind) : List Spawned :=
  match p.constraints.lookup (memberId, kind), p.memberIdentities.lookup memberId,
    target p memberId with
  | some (constraints, _), some identity, some connection =>
      [.constrain connection identity kind (constraints.resolve kind)]
  | _, _, _ => []

/-- No two members have one identity, whoever has one is known, and whoever has a track has
one. -/
structure Alone (p : MediaPool) : Prop where
  single : ∀ {memberId other identity : String},
    p.memberIdentities.lookup memberId = some identity →
      p.memberIdentities.lookup other = some identity → memberId = other
  known : ∀ {memberId identity : String},
    p.memberIdentities.lookup memberId = some identity → memberId ∈ p.knownMembers
  identified : ∀ {s : Stream}, s ∈ p.tracks → (p.memberIdentities.lookup s.1).isSome = true

/-- Whoever a snapshot brings comes under an identity that is nobody else's. -/
def Distinct (p : MediaPool) (snapshot : List JoinedMembership) : Prop :=
  ∀ member ∈ snapshot, member.memberId ∉ p.knownMembers →
    ∀ identity ∈ remoteIdentity p.transports member,
      (∀ e ∈ p.memberIdentities.entries, Named snapshot e.1 → e.2 ≠ identity) ∧
      ∀ other ∈ snapshot, other.memberId ∉ p.knownMembers → other.memberId ≠ member.memberId →
        remoteIdentity p.transports other ≠ some identity

instance (p : MediaPool) (snapshot : List JoinedMembership) : Decidable (Distinct p snapshot) :=
  inferInstanceAs (Decidable (∀ member ∈ snapshot, member.memberId ∉ p.knownMembers →
    ∀ identity ∈ remoteIdentity p.transports member, _ ∧ _))

section
variable {p q r : MediaPool} {memberId : String} {kind : MediaStreamKind}

theorem Alone.of_attribution (alone : Alone p) (attribution : attributionOf q = attributionOf p)
    (tracked : ∀ {s : Stream}, s ∈ q.tracks → (p.memberIdentities.lookup s.1).isSome = true) :
    Alone q := by
  have identities : q.memberIdentities = p.memberIdentities :=
    congrArg Attribution.memberIdentities attribution
  have known : q.knownMembers = p.knownMembers := congrArg Attribution.knownMembers attribution
  refine ⟨fun found found' => ?_, fun found => ?_, fun there => ?_⟩
  · rw [identities] at found found'
    exact alone.single found found'
  · rw [identities] at found
    rw [known]
    exact alone.known found
  · rw [identities]
    exact tracked there

theorem applyConstraintsNow_eq (p : MediaPool) (memberId : String) (kind : MediaStreamKind) :
    p.applyConstraintsNow memberId kind =
      { p with spawned := p.spawned ++ pushes p memberId kind } := by
  have nothing : p = { p with spawned := p.spawned ++ [] } := by rw [List.append_nil]
  unfold MediaPool.applyConstraintsNow pushes target
  cases p.constraints.lookup (memberId, kind) with
  | none => exact nothing
  | some stored =>
      cases p.memberIdentities.lookup memberId with
      | none => exact nothing
      | some identity =>
          cases p.pool.entries.find? fun e => e.2.members.contains memberId with
          | none => exact nothing
          | some e =>
              dsimp only
              rw [Option.bind_some, connectionOf]
              cases e.2.state with
              | up connection => rfl
              | connecting attempt => exact nothing
              | backoff attempt => exact nothing

theorem pushes_spec {task : Spawned} (there : task ∈ pushes p memberId kind) :
    ∃ connection identity constraints generation,
      p.constraints.lookup (memberId, kind) = some (constraints, generation) ∧
        p.memberIdentities.lookup memberId = some identity ∧
        task = .constrain connection identity kind (constraints.resolve kind) := by
  unfold pushes at there
  split at there
  · next constraints generation identity connection found mapped is_target =>
      exact ⟨connection, identity, constraints, generation, found, mapped,
        List.mem_singleton.mp there⟩
  · cases there

theorem mem_pushes {constraints : MediaConstraints} {generation connection : ℕ}
    {identity : String}
    (found : p.constraints.lookup (memberId, kind) = some (constraints, generation))
    (mapped : p.memberIdentities.lookup memberId = some identity)
    (is_target : target p memberId = some connection) :
    .constrain connection identity kind (constraints.resolve kind) ∈ pushes p memberId kind := by
  rw [pushes, found, mapped, is_target]
  exact .head _

theorem addTrack_eq (p : MediaPool) (memberId : String) (kind : MediaStreamKind)
    (pooled : PooledTrack) :
    ∃ events, p.addTrack memberId kind pooled =
      { p with
        tracks := p.tracks.insert (memberId, kind) pooled
        out := p.out ++ events
        spawned := p.spawned ++
          if (p.tracks.lookup (memberId, kind)).any (·.track == pooled.track) then []
          else pushes p memberId kind } := by
  have announced (q : MediaPool) : q.announceStream memberId kind =
      { q with
        out := q.out ++ [.streamAdded memberId kind]
        spawned := q.spawned ++ pushes q memberId kind } := by
    unfold MediaPool.announceStream
    extract_lets r
    split_ifs with stored
    · rw [applyConstraintsNow_eq]
      rfl
    · have none_ : q.constraints.lookup (memberId, kind) = none :=
        Option.not_isSome_iff_eq_none.mp stored
      have nothing : pushes q memberId kind = [] := by rw [pushes, none_]
      rw [nothing, List.append_nil]
      rfl
  unfold MediaPool.addTrack
  cases was : p.tracks.lookup (memberId, kind) with
  | none =>
      refine ⟨[.streamAdded memberId kind], ?_⟩
      dsimp only
      rw [announced]
      rfl
  | some old =>
      dsimp only
      split_ifs with same same' same'
      · exact ⟨[], by rw [List.append_nil, List.append_nil]⟩
      · exact absurd (by simpa using same) same'
      · exact absurd (by simpa using same') same
      · refine ⟨[.streamRemoved memberId kind, .streamAdded memberId kind], ?_⟩
        rw [announced]
        dsimp only [MediaPool.emit]
        rw [List.append_assoc]
        rfl

theorem reapplyConnectionConstraints_eq {key : String} {entry : ManagedConnection}
    (found : p.pool.lookup key = some entry) :
    p.reapplyConnectionConstraints key =
      { p with
        spawned := p.spawned ++ p.constraints.keys.flatMap fun stream =>
          if entry.members.contains stream.1 then pushes p stream.1 stream.2 else [] } := by
  have each (streams : List Stream) (tasks : List Spawned) :
      streams.foldl (fun p stream =>
        if entry.members.contains stream.1 then p.applyConstraintsNow stream.1 stream.2 else p)
        { p with spawned := tasks } =
      { p with
        spawned := tasks ++ streams.flatMap fun stream =>
          if entry.members.contains stream.1 then pushes p stream.1 stream.2 else [] } := by
    induction streams generalizing tasks with
    | nil => rw [List.flatMap_nil, List.append_nil]; rfl
    | cons stream rest ih =>
        rw [List.foldl_cons, List.flatMap_cons]
        split_ifs
        · rw [applyConstraintsNow_eq, ← List.append_assoc]
          exact ih _
        · exact ih tasks
  rw [MediaPool.reapplyConnectionConstraints, found]
  exact each p.constraints.keys p.spawned

/-- What a call does that brings no member and no constraints: it tells of streams as they
are stored. -/
structure Pushed (p q : MediaPool) : Prop where
  attribution : attributionOf q = attributionOf p
  constraints : q.constraints = p.constraints
  tasks : ∃ tasks, q.spawned = p.spawned ++ tasks ∧ ∀ task ∈ tasks,
    aboutConstraints task = true → Pushes p task

theorem pushed_of_passes (h : Passes p q) : Pushed p q := ⟨h.attribution, h.constraints, h.tasks⟩

theorem pushes_of_mem {task : Spawned} (there : task ∈ pushes p memberId kind) : Pushes p task := by
  obtain ⟨connection, identity, constraints, generation, found, mapped, is_⟩ := pushes_spec there
  exact ⟨connection, identity, memberId, kind, constraints, generation, found, mapped, is_⟩

theorem pushed_addTrack (p : MediaPool) (memberId : String) (kind : MediaStreamKind)
    (pooled : PooledTrack) : Pushed p (p.addTrack memberId kind pooled) := by
  obtain ⟨events, added⟩ := addTrack_eq p memberId kind pooled
  rw [added]
  refine ⟨rfl, rfl, _, rfl, fun task there _ => ?_⟩
  split_ifs at there
  · cases there
  · exact pushes_of_mem there

theorem pushed_handle_trackAdded (p : MediaPool) (key identity : String)
    (kind : MediaStreamKind) (track : ℕ) : Pushed p (p.trackAdded key identity kind track) := by
  unfold MediaPool.trackAdded
  split
  · exact pushed_addTrack p _ kind _
  · exact ⟨rfl, rfl, [], (List.append_nil _).symm, by simp⟩

theorem pushed_muted (p : MediaPool) (identity : String) (kind : MediaStreamKind)
    (muted : Bool) : Pushed p (p.muted identity kind muted) := by
  unfold MediaPool.muted
  split <;> exact ⟨rfl, rfl, [], (List.append_nil _).symm, by simp⟩

theorem pushed_perform {input : Input} (snapshot : ∀ members, input.call ≠ .applySnapshot members)
    (constraints : ∀ memberId kind c, input.call ≠ .setConstraints memberId kind c) :
    Pushed p (p.perform input) := by
  obtain ⟨call, now, takeOver⟩ := input
  by_cases plain : isPlain call = true
  · exact pushed_of_passes (passes_of_steps (@steps_perform p ⟨call, now, takeOver⟩ plain))
  · cases call with
    | applySnapshot members => exact absurd rfl (snapshot members)
    | setConstraints memberId kind c => exact absurd rfl (constraints memberId kind c)
    | handle message =>
        cases message with
        | connection key generation event =>
            unfold MediaPool.perform MediaPool.handle
            dsimp only
            split_ifs
            · cases event with
              | trackAdded identity kind track =>
                  exact pushed_handle_trackAdded p key identity kind track
              | trackMuted identity kind => exact pushed_muted p identity kind true
              | trackUnmuted identity kind => exact pushed_muted p identity kind false
              | _ => exact absurd rfl plain
            · exact ⟨rfl, rfl, [], (List.append_nil _).symm, by simp⟩
        | _ => exact absurd rfl plain
    | _ => exact absurd rfl plain

/-- The call is a current connection's report of a track of the stream. -/
def Brings (p : MediaPool) (call : Call) (s : Stream) (pooled : PooledTrack) : Prop :=
  ∃ generation identity, call = .handle
      (.connection pooled.connectionKey generation (.trackAdded identity s.2 pooled.track)) ∧
    p.isCurrent pooled.connectionKey generation = true ∧
    p.identityMap.lookup identity = some s.1

/-- A track was there, or it is what the call brings. -/
theorem tracks_perform {input : Input} (snapshot : ∀ members, input.call ≠ .applySnapshot members)
    {s : Stream} {pooled : PooledTrack}
    (found : (p.perform input).tracks.lookup s = some pooled) :
    p.tracks.lookup s = some pooled ∨ Brings p input.call s pooled := by
  obtain ⟨call, now, takeOver⟩ := input
  by_cases plain : isPlain call = true
  · exact .inl ((passes_of_steps (@steps_perform p ⟨call, now, takeOver⟩ plain)).tracks s pooled
      found)
  · cases call with
    | applySnapshot members => exact absurd rfl (snapshot members)
    | setConstraints memberId kind c => exact .inl found
    | handle message =>
        cases message with
        | connection key generation event =>
            unfold MediaPool.perform MediaPool.handle at found
            dsimp only at found ⊢
            split_ifs at found with current
            · cases event with
              | trackAdded identity kind track =>
                  unfold MediaPool.handleConnectionEvent MediaPool.trackAdded at found
                  dsimp only at found
                  cases mapped : p.identityMap.lookup identity with
                  | none =>
                      rw [mapped] at found
                      exact .inl found
                  | some memberId =>
                      rw [mapped] at found
                      obtain ⟨events, added⟩ := addTrack_eq p memberId kind ⟨key, track⟩
                      dsimp only at found
                      rw [added] at found
                      obtain ⟨rfl, rfl⟩ | ⟨-, before⟩ := of_lookup_insert found
                      · exact .inr ⟨generation, identity, rfl, current, mapped⟩
                      · exact .inl before
              | trackMuted identity kind =>
                  refine .inl ?_
                  unfold MediaPool.handleConnectionEvent MediaPool.muted at found
                  dsimp only at found
                  split at found <;> exact found
              | trackUnmuted identity kind =>
                  refine .inl ?_
                  unfold MediaPool.handleConnectionEvent MediaPool.muted at found
                  dsimp only at found
                  split at found <;> exact found
              | _ => exact absurd rfl plain
            · exact .inl found
        | _ => exact absurd rfl plain
    | _ => exact absurd rfl plain

/-- What is done for one member: it is told of under its identity, and the streams of the
others are left alone. -/
structure Beside (memberId identity : String) (p q : MediaPool) : Prop where
  constraints : q.constraints = p.constraints
  identities : q.memberIdentities = p.memberIdentities
  tracks : ∀ s : Stream, s.1 ≠ memberId → q.tracks.lookup s = p.tracks.lookup s
  tasks : ∃ tasks, q.spawned = p.spawned ++ tasks ∧ ∀ task ∈ tasks,
    ∃ connection kind resolved, task = .constrain connection identity kind resolved

namespace Beside

variable {identity : String}

theorem of_same (constraints : q.constraints = p.constraints)
    (identities : q.memberIdentities = p.memberIdentities) (tracks : q.tracks = p.tracks)
    (spawned : q.spawned = p.spawned) : Beside memberId identity p q :=
  ⟨constraints, identities, fun _ _ => by rw [tracks],
    [], by rw [spawned, List.append_nil], by simp⟩

theorem trans (first : Beside memberId identity p q) (second : Beside memberId identity q r) :
    Beside memberId identity p r where
  constraints := second.constraints.trans first.constraints
  identities := second.identities.trans first.identities
  tracks s other := (second.tracks s other).trans (first.tracks s other)
  tasks := by
    obtain ⟨tasks, spawned, told⟩ := first.tasks
    obtain ⟨later, spawned', told'⟩ := second.tasks
    refine ⟨tasks ++ later, by rw [spawned', spawned, List.append_assoc], fun task there => ?_⟩
    obtain there | there := List.mem_append.mp there
    · exact told task there
    · exact told' task there

theorem addTrack (mapped : p.memberIdentities.lookup memberId = some identity)
    (kind : MediaStreamKind) (pooled : PooledTrack) :
    Beside memberId identity p (p.addTrack memberId kind pooled) := by
  obtain ⟨events, added⟩ := addTrack_eq p memberId kind pooled
  rw [added]
  refine ⟨rfl, rfl, fun s other => ?_, _, rfl, fun task there => ?_⟩
  · exact AList.lookup_insert_ne fun same => other (congrArg Prod.fst same)
  · split_ifs at there
    · cases there
    · obtain ⟨connection, identity', constraints, generation, -, mapped', is_⟩ :=
        pushes_spec there
      cases mapped.symm.trans mapped'
      exact ⟨connection, kind, _, is_⟩

theorem flushTracks (mapped : p.memberIdentities.lookup memberId = some identity) :
    Beside memberId identity p (p.flushTracks memberId identity) := by
  unfold MediaPool.flushTracks
  extract_lets pending
  have erased : Beside memberId identity p
      { p with pendingTracks := p.pendingTracks.erase identity } := .of_same rfl rfl rfl rfl
  refine erased.trans ?_
  rw [← erased.identities] at mapped
  generalize ({ p with pendingTracks := p.pendingTracks.erase identity } : MediaPool) = q at mapped
  induction pending generalizing q with
  | nil => exact .of_same rfl rfl rfl rfl
  | cons buffered rest ih =>
      have added := addTrack mapped buffered.1 buffered.2
      exact added.trans (ih _ (added.identities ▸ mapped))

theorem flushKeys (p : MediaPool) (other : String) :
    Beside memberId identity p (p.flushKeys memberId other) := by
  unfold MediaPool.flushKeys
  extract_lets pending
  have erased : Beside memberId identity p
      { p with pendingKeys := p.pendingKeys.erase other } := .of_same rfl rfl rfl rfl
  refine erased.trans ?_
  generalize ({ p with pendingKeys := p.pendingKeys.erase other } : MediaPool) = q
  induction pending generalizing q with
  | nil => exact .of_same rfl rfl rfl rfl
  | cons keyIndex rest ih =>
      exact Beside.trans (q := q.emit (.keyImported memberId other keyIndex))
        (.of_same rfl rfl rfl rfl) (ih _)

end Beside

/-- What the arrivals of a snapshot leave of the members that are known. -/
structure Joins (snapshot : List JoinedMembership) (p q : MediaPool) : Prop where
  transports : q.transports = p.transports
  constraints : q.constraints = p.constraints
  known : ∀ {memberId}, memberId ∈ p.knownMembers → memberId ∈ q.knownMembers
  tracks : ∀ s : Stream, s.1 ∈ p.knownMembers → q.tracks.lookup s = p.tracks.lookup s
  identities : ∀ memberId ∈ p.knownMembers,
    q.memberIdentities.lookup memberId = p.memberIdentities.lookup memberId
  tasks : ∃ tasks, q.spawned = p.spawned ++ tasks ∧ ∀ task ∈ tasks,
    ∃ member ∈ snapshot, member.memberId ∉ p.knownMembers ∧
      ∃ connection identity kind resolved,
        remoteIdentity p.transports member = some identity ∧
          task = .constrain connection identity kind resolved
  mapped : ∀ {memberId identity : String}, q.memberIdentities.lookup memberId = some identity →
    p.memberIdentities.lookup memberId = some identity ∨
      memberId ∈ q.knownMembers ∧ ∃ member ∈ snapshot, member.memberId = memberId ∧
        memberId ∉ p.knownMembers ∧ remoteIdentity p.transports member = some identity
  stays : ∀ {memberId}, (p.memberIdentities.lookup memberId).isSome = true →
    (q.memberIdentities.lookup memberId).isSome = true
  tracked : ∀ {s : Stream}, s ∈ q.tracks →
    s ∈ p.tracks ∨ (q.memberIdentities.lookup s.1).isSome = true

theorem beside_joinMember {member : JoinedMembership} {identity : String}
    (new : member.memberId ∉ p.knownMembers)
    (is_identity : remoteIdentity p.transports member = some identity) :
    Beside member.memberId identity
      (({ p with knownMembers := member.memberId :: p.knownMembers } :
        MediaPool).mapIdentity member.memberId identity)
      (p.joinMember member) := by
  rw [MediaPool.joinMember, if_neg fun known => new (List.contains_iff_mem.mp known)]
  unfold MediaPool.mapMember
  rw [show remoteIdentity _ member = some identity from is_identity]
  dsimp only
  have flushed := @Beside.flushTracks (({ p with
    knownMembers := member.memberId :: p.knownMembers } : MediaPool).mapIdentity member.memberId
      identity) member.memberId identity (AList.lookup_insert _)
  refine flushed.trans (Beside.trans ?_ (.flushKeys _ identity))
  split_ifs
  · exact .of_same rfl rfl rfl rfl
  · exact .of_same rfl rfl rfl rfl

theorem joins_joinMember (p : MediaPool) (member : JoinedMembership) :
    Joins [member] p (p.joinMember member) := by
  by_cases known : member.memberId ∈ p.knownMembers
  · rw [joinMember_known known]
    exact ⟨rfl, rfl, id, fun _ _ => rfl, fun _ _ => rfl,
      ⟨[], (List.append_nil _).symm, by simp⟩, .inl, id, .inl⟩
  · have stays {memberId : String} (there : memberId ∈ p.knownMembers) :
        memberId ≠ member.memberId := by
      rintro rfl
      exact known there
    have is_known {memberId : String} (there : memberId ∈ p.knownMembers) :
        memberId ∈ (p.joinMember member).knownMembers := mem_known_joinMember.mpr (.inr there)
    cases is_identity : remoteIdentity p.transports member with
    | none =>
        have joined : p.joinMember member =
            { p with knownMembers := member.memberId :: p.knownMembers } := by
          rw [MediaPool.joinMember, if_neg fun there => known (List.contains_iff_mem.mp there),
            MediaPool.mapMember, show remoteIdentity _ member = none from is_identity]
        rw [joined]
        exact ⟨rfl, rfl, .tail _, fun _ _ => rfl, fun _ _ => rfl,
          ⟨[], (List.append_nil _).symm, by simp⟩, .inl, id, .inl⟩
    | some identity =>
        have beside := beside_joinMember known is_identity
        refine
          { transports := transports_joinMember member
            constraints := beside.constraints
            known := is_known
            tracks := fun s there => beside.tracks s (stays there)
            identities := fun memberId there => ?_
            tasks := ?_
            mapped := fun {memberId identity'} found => ?_
            stays := fun {memberId} found => ?_
            tracked := fun {s} there => ?_ }
        · rw [beside.identities]
          exact AList.lookup_insert_ne (stays there)
        · obtain ⟨tasks, spawned, told⟩ := beside.tasks
          refine ⟨tasks, spawned, fun task there => ?_⟩
          obtain ⟨connection, kind, resolved, is_⟩ := told task there
          exact ⟨member, .head _, known, connection, identity, kind, resolved, is_identity, is_⟩
        · rw [beside.identities] at found
          obtain ⟨rfl, rfl⟩ | ⟨-, before⟩ := of_lookup_insert found
          · exact .inr ⟨mem_known_joinMember.mpr (.inl rfl), member, .head _, rfl, known,
              is_identity⟩
          · exact .inl before
        · rw [beside.identities]
          change ((p.memberIdentities.insert member.memberId identity).lookup memberId).isSome = true
          rw [AList.lookup_isSome, AList.mem_insert]
          exact .inr (AList.lookup_isSome.mp found)
        · by_cases same : s.1 = member.memberId
          · right
            rw [beside.identities, same]
            change ((p.memberIdentities.insert member.memberId identity).lookup _).isSome = true
            rw [AList.lookup_insert]
            rfl
          · left
            rw [← AList.lookup_isSome, ← show _ = p.tracks.lookup s from beside.tracks s same]
            exact AList.lookup_isSome.mpr there

theorem joins_joinAll (snapshot : List JoinedMembership) (p : MediaPool) :
    Joins snapshot p (snapshot.foldl MediaPool.joinMember p) := by
  induction snapshot generalizing p with
  | nil =>
      exact ⟨rfl, rfl, id, fun _ _ => rfl, fun _ _ => rfl,
        ⟨[], (List.append_nil _).symm, by simp⟩, .inl, id, .inl⟩
  | cons member rest ih =>
      have first := joins_joinMember p member
      have later := ih (p.joinMember member)
      refine
        { transports := later.transports.trans first.transports
          constraints := later.constraints.trans first.constraints
          known := fun there => later.known (first.known there)
          tracks := fun s there => (later.tracks s (first.known there)).trans (first.tracks s there)
          identities := fun memberId there =>
            (later.identities memberId (first.known there)).trans (first.identities memberId there)
          tasks := ?_
          mapped := fun {memberId identity} found => ?_
          stays := fun found => later.stays (first.stays found)
          tracked := fun there => ?_ }
      · obtain ⟨tasks, spawned, told⟩ := first.tasks
        obtain ⟨more, spawned', told'⟩ := later.tasks
        refine ⟨tasks ++ more, by rw [List.foldl_cons, spawned', spawned, List.append_assoc],
          fun task there => ?_⟩
        obtain there | there := List.mem_append.mp there
        · obtain ⟨other, at_, new, is_⟩ := told task there
          exact ⟨other, List.mem_singleton.mp at_ ▸ .head _, new, is_⟩
        · obtain ⟨other, at_, new, is_⟩ := told' task there
          refine ⟨other, .tail _ at_, fun before => new (first.known before), ?_⟩
          rw [first.transports] at is_
          exact is_
      · obtain before | ⟨is_known, other, at_, is_other, new, is_identity⟩ := later.mapped found
        · obtain before | ⟨is_known, other, at_, is_other, new, is_identity⟩ := first.mapped before
          · exact .inl before
          · exact .inr ⟨later.known is_known, other, List.mem_singleton.mp at_ ▸ .head _, is_other,
              new, is_identity⟩
        · rw [first.transports] at is_identity
          exact .inr ⟨is_known, other, .tail _ at_, is_other,
            fun there => new (first.known there), is_identity⟩
      · obtain before | mapped := later.tracked there
        · exact (first.tracked before).imp_right later.stays
        · exact .inr mapped

/-- What is forgotten of the departed, and nothing else. -/
structure Forgets (departed : List String) (p q : MediaPool) : Prop where
  spawned : q.spawned = p.spawned
  constraints : ∀ s : Stream, q.constraints.lookup s =
    if s.1 ∈ departed then none else p.constraints.lookup s
  tracks : ∀ s : Stream, q.tracks.lookup s =
    if s.1 ∈ departed then none else p.tracks.lookup s
  identities : ∀ memberId, q.memberIdentities.lookup memberId =
    if memberId ∈ departed then none else p.memberIdentities.lookup memberId

theorem lookup_retain_streams {β : Type} (t : Table Stream β) (memberId : String) (s : Stream) :
    (retain t fun stream _ => stream.1 != memberId).lookup s =
      if s.1 = memberId then none else t.lookup s := by
  rw [lookup_retain]
  cases t.lookup s with
  | none => rw [Option.filter_none, ite_self]
  | some v =>
      rw [Option.filter_some]
      by_cases same : s.1 = memberId
      · rw [if_pos same, if_neg (by simpa using same)]
      · rw [if_neg same, if_pos (bne_iff_ne.mpr same)]

theorem forgets_foldl (departed : List String) (p : MediaPool) :
    Forgets departed p (departed.foldl MediaPool.forgetMember p) := by
  induction departed generalizing p with
  | nil => exact ⟨rfl, fun _ => rfl, fun _ => rfl, fun _ => rfl⟩
  | cons memberId rest ih =>
      obtain ⟨spawned, constraints, tracks, identities⟩ := ih (p.forgetMember memberId)
      have merged {β : Type} (other : String) (value : Option β) :
          (if other ∈ rest then none else if other = memberId then none else value) =
            if other ∈ memberId :: rest then none else value := by
        by_cases later : other ∈ rest <;> by_cases same : other = memberId <;>
          simp [later, same]
      refine ⟨spawned, fun s => ?_, fun s => ?_, fun other => ?_⟩
      · rw [List.foldl_cons, constraints,
          show (p.forgetMember memberId).constraints.lookup s = _ from
            lookup_retain_streams p.constraints memberId s, merged]
      · rw [List.foldl_cons, tracks,
          show (p.forgetMember memberId).tracks.lookup s = _ from
            lookup_retain_streams p.tracks memberId s, merged]
      · have erased : (p.forgetMember memberId).memberIdentities.lookup other =
            if other = memberId then none else p.memberIdentities.lookup other := by
          change (p.memberIdentities.erase memberId).lookup other = _
          split_ifs with same
          · rw [same, AList.lookup_erase]
          · exact AList.lookup_erase_ne same
        rw [List.foldl_cons, identities, erased, merged]

/-- What tasks tell of a stream is what is stored of it. -/
def Faithful (p : MediaPool) (tasks : List Spawned) (s : Stream) : Prop :=
  ∀ {connection identity resolved}, .constrain connection identity s.2 resolved ∈ tasks →
    p.memberIdentities.lookup s.1 = some identity →
      ∀ stored ∈ p.constraints.lookup s, resolved = stored.1.resolve s.2

theorem faithful_of_pushes (alone : Alone p) {tasks : List Spawned}
    (told : ∀ task ∈ tasks, aboutConstraints task = true → Pushes p task) (s : Stream) :
    Faithful p tasks s := by
  intro connection identity resolved there mapped stored found
  obtain ⟨connection', identity', memberId, kind, constraints, generation, found', mapped',
    is_⟩ := told _ there rfl
  cases is_
  cases alone.single mapped mapped'
  cases found.symm.trans found'
  rfl

/-- What a snapshot leaves of the members that it leaves. -/
structure Applied (snapshot : List JoinedMembership) (p q : MediaPool) : Prop where
  alone : Alone q
  constraints : ∀ s : Stream, q.constraints.lookup s =
    if s.1 ∈ p.knownMembers ∧ ¬ Named snapshot s.1 then none else p.constraints.lookup s
  tracks : ∀ (s : Stream) (pooled : PooledTrack), s.1 ∈ p.knownMembers → Named snapshot s.1 →
    q.tracks.lookup s = some pooled → p.tracks.lookup s = some pooled
  identities : ∀ memberId ∈ p.knownMembers, Named snapshot memberId →
    q.memberIdentities.lookup memberId = p.memberIdentities.lookup memberId
  tasks : ∃ tasks, q.spawned = p.spawned ++ tasks ∧
    ∀ s : Stream, s.1 ∈ p.knownMembers → Named snapshot s.1 → Faithful p tasks s

theorem applied_applySnapshot (attributed : Attributed p) (alone : Alone p)
    {snapshot : List JoinedMembership} (distinct : Distinct p snapshot) :
    Applied snapshot p (p.applySnapshot snapshot) := by
  let gone := p.forgetDeparted snapshot
  let joined := snapshot.foldl MediaPool.joinMember gone
  have remains := remains_forgetDeparted attributed snapshot
  have forgets := forgets_foldl (p.knownMembers.filter fun memberId =>
    !(snapshot.map (·.memberId)).contains memberId) p
  have departed {memberId : String} : memberId ∈ (p.knownMembers.filter fun memberId =>
      !(snapshot.map (·.memberId)).contains memberId) ↔
        memberId ∈ p.knownMembers ∧ ¬ Named snapshot memberId := by
    rw [List.mem_filter, named_iff, Bool.not_eq_true', ← Bool.not_eq_true, List.contains_iff_mem]
  have joins : Joins snapshot gone joined := joins_joinAll snapshot gone
  have noted : Steps { joined with membersSnapshot := snapshot } (p.applySnapshot snapshot) :=
    steps_reconcilePool
  have passes := passes_of_steps noted
  -- a newcomer is not among those known before
  have newcomer {member : JoinedMembership} (at_ : member ∈ snapshot)
      (new : member.memberId ∉ gone.knownMembers) : member.memberId ∉ p.knownMembers := by
    intro known
    exact new ((remains.known _).mpr ⟨known, member, at_, rfl⟩)
  have stays {memberId : String} (known : memberId ∈ p.knownMembers)
      (named : Named snapshot memberId) : memberId ∈ gone.knownMembers :=
    (remains.known memberId).mpr ⟨known, named⟩
  have left {memberId : String} (named : Named snapshot memberId) :
      ¬ (memberId ∈ p.knownMembers ∧ ¬ Named snapshot memberId) := fun h => h.2 named
  have old {memberId identity : String}
      (found : gone.memberIdentities.lookup memberId = some identity) :
      p.memberIdentities.lookup memberId = some identity ∧ Named snapshot memberId := by
    rw [show gone.memberIdentities.lookup memberId = _ from forgets.identities memberId] at found
    split_ifs at found with is_departed
    refine ⟨found, by_contra fun unnamed => is_departed (departed.mpr ⟨alone.known found, unnamed⟩)⟩
  have constraints (s : Stream) : joined.constraints.lookup s =
      if s.1 ∈ p.knownMembers ∧ ¬ Named snapshot s.1 then none else p.constraints.lookup s := by
    rw [joins.constraints, show gone.constraints.lookup s = _ from forgets.constraints s]
    simp only [departed]
  have identities {memberId : String} (known : memberId ∈ p.knownMembers)
      (named : Named snapshot memberId) :
      joined.memberIdentities.lookup memberId = p.memberIdentities.lookup memberId := by
    rw [joins.identities memberId (stays known named),
      show gone.memberIdentities.lookup memberId = _ from forgets.identities memberId,
      if_neg fun is_departed => left named (departed.mp is_departed)]
  have alone_joined : Alone joined := by
    refine ⟨fun {memberId other identity} found found' => ?_,
      fun {memberId identity} found => ?_, fun {s} there => ?_⟩
    · obtain before | ⟨-, member, at_, rfl, new, is_⟩ := joins.mapped found <;>
        obtain before' | ⟨-, member', at_', rfl, new', is_'⟩ := joins.mapped found'
      · exact alone.single (old before).1 (old before').1
      · rw [remains.transports] at is_'
        exact absurd rfl ((distinct member' at_' (newcomer at_' new') identity is_').1
          ⟨memberId, identity⟩ (lookup_eq_some_iff.mp (old before).1) (old before).2)
      · rw [remains.transports] at is_
        exact absurd rfl ((distinct member at_ (newcomer at_ new) identity is_).1
          ⟨other, identity⟩ (lookup_eq_some_iff.mp (old before').1) (old before').2)
      · rw [remains.transports] at is_ is_'
        by_contra differs
        exact (distinct member at_ (newcomer at_ new) identity is_).2 member' at_'
          (newcomer at_' new') (Ne.symm differs) is_'
    · obtain before | ⟨known, -⟩ := joins.mapped found
      · exact joins.known (stays (alone.known (old before).1) (old before).2)
      · exact known
    · obtain before | mapped := joins.tracked there
      · refine joins.stays ?_
        obtain ⟨tracked, named⟩ := (remains.streams s).mp before
        rw [show gone.memberIdentities.lookup s.1 = _ from forgets.identities s.1,
          if_neg fun is_departed => left named (departed.mp is_departed)]
        exact alone.identified tracked
      · exact mapped
  have alone_noted : Alone { joined with membersSnapshot := snapshot } :=
    ⟨alone_joined.single, alone_joined.known, alone_joined.identified⟩
  refine
    { alone := alone_noted.of_attribution passes.attribution fun {s} there => ?_
      constraints := fun s => ?_
      tracks := fun s pooled known named found => ?_
      identities := fun memberId known named => ?_
      tasks := ?_ }
  · obtain ⟨pooled, found⟩ := Option.isSome_iff_exists.mp (AList.lookup_isSome.mpr there)
    exact alone_joined.identified
      (AList.lookup_isSome.mp (Option.isSome_of_mem (passes.tracks s pooled found)))
  · rw [passes.constraints]
    exact constraints s
  · have at_joined : joined.tracks.lookup s = some pooled := passes.tracks s pooled found
    rw [joins.tracks s (stays known named), show gone.tracks.lookup s = _ from forgets.tracks s]
      at at_joined
    split_ifs at at_joined
    exact at_joined
  · rw [passes.identities]
    exact identities known named
  · obtain ⟨tasks, spawned, told⟩ := joins.tasks
    obtain ⟨later, spawned', told'⟩ := passes.tasks
    refine ⟨tasks ++ later, ?_, fun s known named => ?_⟩
    · rw [spawned', show ({ joined with membersSnapshot := snapshot } : MediaPool).spawned =
        joined.spawned from rfl, spawned, show gone.spawned = p.spawned from forgets.spawned,
        List.append_assoc]
    · intro connection identity resolved there mapped stored found
      obtain there | there := List.mem_append.mp there
      · obtain ⟨member, at_, new, connection', identity', kind, resolved', is_, same⟩ :=
          told _ there
        cases same
        rw [remains.transports] at is_
        exact absurd rfl ((distinct member at_ (newcomer at_ new) identity is_).1
          ⟨s.1, identity⟩ (lookup_eq_some_iff.mp mapped) named)
      · refine faithful_of_pushes alone_noted told' s there ((identities known named).trans mapped)
          stored ?_
        exact (constraints s).trans ((if_neg (left named)).trans found)

theorem alone_perform (attributed : Attributed p) (alone : Alone p) {input : Input}
    (snapshot : ∀ members, input.call ≠ .applySnapshot members)
    (attribution : attributionOf (p.perform input) = attributionOf p) :
    Alone (p.perform input) := by
  refine alone.of_attribution attribution fun {s} there => ?_
  obtain ⟨pooled, found⟩ := Option.isSome_iff_exists.mp (AList.lookup_isSome.mpr there)
  obtain before | ⟨generation, identity, -, -, mapped⟩ := tracks_perform snapshot found
  · exact alone.identified (AList.lookup_isSome.mp (Option.isSome_of_mem before))
  · exact Option.isSome_of_mem (attributed.named mapped)

end

end MatrixRtc.PoolConstraints

import MatrixRtc.PoolMembers
import MatrixRtc.PoolSteps

/-!
# Our own media in a pool

Nothing subscribes us to ourselves: where no connection brings a track under an identity that
is ours, the pool has no track of our own membership, and tells of its streams only where a
connection says that one of them is muted or not.
-/
namespace MatrixRtc.OwnMedia
open MemberEvents MediaTransports Tables MediaPools PoolMoves PoolMembers PoolSteps

/-- The member whose stream an event is about. -/
def streamMember : PoolEvent → Option String
  | .streamAdded memberId _ | .streamRemoved memberId _ | .streamMuted memberId _ _ =>
      some memberId
  | _ => none

/-- No media of ours has been brought: `ours` are the identities that our own membership may
have. -/
structure Unbrought (own : String) (ours : List String) (p : MediaPool) : Prop where
  own : ∀ identity, p.memberIdentities.lookup own = some identity → identity ∈ ours
  tracks : ∀ s ∈ p.tracks, ∃ identity, p.memberIdentities.lookup s.1 = some identity ∧
    identity ∉ ours
  pending : ∀ identity ∈ ours, (p.pendingTracks.lookup identity).getD [] = []

/-- Nothing is told of the streams of our own membership. -/
def Untold (own : String) (p q : MediaPool) : Prop :=
  ∃ events, q.out = p.out ++ events ∧ ∀ event ∈ events, streamMember event ≠ some own

/-- What the connections and the snapshots promise of our own membership. -/
def Promised (own : String) (ours : List String) (transports : List MediaTransport) :
    Call → Prop
  | .applySnapshot snapshot => ∀ member ∈ snapshot, member.memberId = own →
      ∀ identity ∈ remoteIdentity transports member, identity ∈ ours
  | .handle (.connection _ _ (.trackAdded identity _ _)) => identity ∉ ours
  | _ => True

/-- The call brings word of a mute. -/
def tellsMute : Call → Bool
  | .handle (.connection _ _ (.trackMuted _ _)) => true
  | .handle (.connection _ _ (.trackUnmuted _ _)) => true
  | _ => false

section
variable {p q r : MediaPool} {own : String} {ours : List String}

theorem Untold.refl (p : MediaPool) : Untold own p p :=
  ⟨[], (List.append_nil _).symm, fun _ there => by cases there⟩

theorem Untold.trans (first : Untold own p q) (second : Untold own q r) : Untold own p r := by
  obtain ⟨events, out, other⟩ := first
  obtain ⟨later, out', other'⟩ := second
  refine ⟨events ++ later, by rw [out', out, List.append_assoc], fun event there => ?_⟩
  obtain there | there := List.mem_append.mp there
  · exact other event there
  · exact other' event there

theorem Untold.of_out (same : q.out = p.out) : Untold own p q :=
  ⟨[], by rw [same, List.append_nil], fun _ there => by cases there⟩

theorem untold_emit {event : PoolEvent} (other : streamMember event ≠ some own) :
    Untold own p (p.emit event) :=
  ⟨[event], rfl, by simpa using other⟩

namespace Unbrought

theorem other (h : Unbrought own ours p) {s : Stream} (there : s ∈ p.tracks) : s.1 ≠ own := by
  rintro rfl
  obtain ⟨identity, has, not_ours⟩ := h.tracks s there
  exact not_ours (h.own identity has)

theorem of_same (h : Unbrought own ours p) (identities : q.memberIdentities = p.memberIdentities)
    (tracks : q.tracks = p.tracks) (pending : q.pendingTracks = p.pendingTracks) :
    Unbrought own ours q where
  own := identities ▸ h.own
  tracks := by
    rw [identities, tracks]
    exact h.tracks
  pending := pending ▸ h.pending

/-- What small steps do with it. -/
theorem passes (h : Unbrought own ours p) (passes : Passes p q) :
    Unbrought own ours q ∧ Untold own p q := by
  refine ⟨⟨?_, ?_, ?_⟩, ?_⟩
  · rw [passes.identities]
    exact h.own
  · intro s there
    obtain ⟨pooled, found⟩ := Option.isSome_iff_exists.mp (AList.lookup_isSome.mpr there)
    rw [passes.identities]
    exact h.tracks s (AList.lookup_isSome.mp (Option.isSome_of_mem (passes.tracks s pooled found)))
  · intro identity there
    have fewer := passes.pending identity
    rw [h.pending identity there] at fewer
    exact List.subset_nil.mp fewer
  · obtain ⟨events, out, about⟩ := passes.told
    refine ⟨events, out, fun event there is_own => ?_⟩
    have stream : aboutStream event = true := by
      cases event <;> first | rfl | cases is_own
    obtain ⟨s, tracked, rfl⟩ := about event there stream
    exact h.other tracked (Option.some.inj is_own)

theorem steps (h : Unbrought own ours p) (steps : Steps p q) :
    Unbrought own ours q ∧ Untold own p q := h.passes (passes_of_steps steps)

end Unbrought

theorem out_applyConstraintsNow (memberId : String) (kind : MediaStreamKind) :
    (p.applyConstraintsNow memberId kind).out = p.out := by
  unfold MediaPool.applyConstraintsNow
  split
  · split <;> rfl
  · rfl

theorem untold_announceStream {memberId : String} (other : memberId ≠ own)
    (kind : MediaStreamKind) : Untold own p (p.announceStream memberId kind) := by
  have told : Untold own p (p.emit (.streamAdded memberId kind)) :=
    untold_emit fun same => other (Option.some.inj same)
  unfold MediaPool.announceStream
  extract_lets q
  split_ifs
  · exact told.trans (.of_out (out_applyConstraintsNow memberId kind))
  · exact told

theorem untold_addTrack {memberId : String} (other : memberId ≠ own) (kind : MediaStreamKind)
    (pooled : PooledTrack) : Untold own p (p.addTrack memberId kind pooled) := by
  have placed : Untold own p { p with tracks := p.tracks.insert (memberId, kind) pooled } :=
    .of_out rfl
  unfold MediaPool.addTrack
  cases p.tracks.lookup (memberId, kind) with
  | some previous =>
      dsimp only
      split_ifs
      · exact placed
      · have gone : streamMember (.streamRemoved memberId kind) ≠ some own :=
          fun same => other (Option.some.inj same)
        exact (placed.trans (untold_emit gone)).trans (untold_announceStream other kind)
  | none => exact placed.trans (untold_announceStream other kind)

/-- A track comes under an identity that is not ours. -/
theorem unbrought_addTrack (h : Unbrought own ours p) {memberId identity : String}
    (has : p.memberIdentities.lookup memberId = some identity) (other : identity ∉ ours)
    (kind : MediaStreamKind) (pooled : PooledTrack) :
    Unbrought own ours (p.addTrack memberId kind pooled) ∧
      Untold own p (p.addTrack memberId kind pooled) ∧
      (p.addTrack memberId kind pooled).memberIdentities = p.memberIdentities := by
  have not_own : memberId ≠ own := by
    rintro rfl
    exact other (h.own identity has)
  obtain ⟨events, -, quiet⟩ := addTrack_spec p memberId kind pooled
  refine ⟨.of_same ?_ quiet.identities (congrArg Media.tracks quiet.media)
    (congrArg Media.pendingTracks quiet.media), untold_addTrack not_own kind pooled,
    quiet.identities⟩
  refine { own := h.own, pending := h.pending, tracks := fun s there => ?_ }
  obtain rfl | before := AList.mem_insert _ |>.mp there
  · exact ⟨identity, has, other⟩
  · exact h.tracks s before

theorem unbrought_forgetMember (h : Unbrought own ours p) (memberId : String) :
    Unbrought own ours (p.forgetMember memberId) where
  own identity has := h.own identity (of_lookup_erase has).2
  tracks s there := by
    obtain ⟨before, differs⟩ := mem_forgetMember_tracks.mp there
    obtain ⟨identity, has, other⟩ := h.tracks s before
    exact ⟨identity, (AList.lookup_erase_ne differs).trans has, other⟩
  pending identity is_ours := by
    change ((p.pendingWith (p.memberIdentities.lookup memberId)
      (p.tracksOf memberId)).lookup identity).getD [] = []
    unfold MediaPool.pendingWith
    split
    · next departing has =>
        split_ifs with nothing
        · exact h.pending identity is_ours
        · -- whoever has tracks has an identity that is not ours
          have some_ : p.tracksOf memberId ≠ [] := fun none_ => nothing (by rw [none_]; rfl)
          obtain ⟨t, there⟩ := List.exists_mem_of_ne_nil _ some_
          obtain ⟨e, at_, -⟩ := List.mem_map.mp there
          obtain ⟨tracked, is_member⟩ := List.mem_filter.mp at_
          obtain ⟨other, has', not_ours⟩ := h.tracks e.1
            (AList.mem_keys.mpr (List.mem_map_of_mem tracked))
          rw [beq_iff_eq.mp is_member, has] at has'
          cases has'
          have differs : identity ≠ departing := by
            rintro rfl
            exact not_ours is_ours
          rw [AList.lookup_insert_ne differs]
          exact h.pending identity is_ours
    · exact h.pending identity is_ours

theorem unbrought_forgetDeparted (h : Unbrought own ours p) (snapshot : List JoinedMembership) :
    Unbrought own ours (p.forgetDeparted snapshot) := by
  unfold MediaPool.forgetDeparted
  extract_lets current departed
  generalize departed = ids
  induction ids generalizing p with
  | nil => exact h
  | cons memberId rest ih => exact ih (unbrought_forgetMember h memberId)

theorem unbrought_addAll {memberId identity : String} (other : identity ∉ ours)
    (pending : List (MediaStreamKind × PooledTrack)) (h : Unbrought own ours p)
    (has : p.memberIdentities.lookup memberId = some identity) :
    Unbrought own ours
        (pending.foldl (fun p (kind, pooled) => p.addTrack memberId kind pooled) p) ∧
      Untold own p
        (pending.foldl (fun p (kind, pooled) => p.addTrack memberId kind pooled) p) := by
  induction pending generalizing p with
  | nil => exact ⟨h, .refl p⟩
  | cons buffered rest ih =>
      obtain ⟨first, untold, same⟩ := unbrought_addTrack h has other buffered.1 buffered.2
      obtain ⟨last, untold'⟩ := ih first (same ▸ has)
      exact ⟨last, untold.trans untold'⟩

theorem unbrought_flushTracks (h : Unbrought own ours p) {memberId identity : String}
    (has : p.memberIdentities.lookup memberId = some identity) :
    Unbrought own ours (p.flushTracks memberId identity) ∧
      Untold own p (p.flushTracks memberId identity) := by
  have erased : Unbrought own ours { p with pendingTracks := p.pendingTracks.erase identity } := by
    refine { own := h.own, tracks := h.tracks, pending := fun other is_ours => ?_ }
    dsimp only
    by_cases same : other = identity
    · rw [same, AList.lookup_erase]
      rfl
    · rw [AList.lookup_erase_ne same]
      exact h.pending other is_ours
  unfold MediaPool.flushTracks
  extract_lets pending
  by_cases is_ours : identity ∈ ours
  · rw [show pending = [] from h.pending identity is_ours]
    exact ⟨erased, .of_out rfl⟩
  · obtain ⟨last, untold⟩ := unbrought_addAll is_ours pending erased has
    exact ⟨last, Untold.trans (.of_out rfl) untold⟩

theorem untold_flushKeys (memberId identity : String) :
    Untold own p (p.flushKeys memberId identity) := by
  unfold MediaPool.flushKeys
  extract_lets pending
  refine Untold.trans (q := { p with pendingKeys := p.pendingKeys.erase identity })
    (.of_out rfl) ?_
  generalize ({ p with pendingKeys := p.pendingKeys.erase identity } : MediaPool) = q
  induction pending generalizing q with
  | nil => exact .refl q
  | cons keyIndex rest ih =>
      exact (untold_emit (by simp [streamMember])).trans
        (ih (q.emit (.keyImported memberId identity keyIndex)))

/-- A member that is new is mapped. -/
theorem unbrought_joinMember (h : Unbrought own ours p) (attributed : Attributed p)
    {member : JoinedMembership} (promised : member.memberId = own →
      ∀ identity ∈ remoteIdentity p.transports member, identity ∈ ours) :
    Unbrought own ours (p.joinMember member) ∧ Untold own p (p.joinMember member) := by
  by_cases known : member.memberId ∈ p.knownMembers
  · rw [joinMember_known known]
    exact ⟨h, .refl p⟩
  · unfold MediaPool.joinMember
    rw [if_neg fun there => known (List.contains_iff_mem.mp there)]
    unfold MediaPool.mapMember
    cases is_identity : remoteIdentity p.transports member with
    | none =>
        exact ⟨h.of_same rfl rfl rfl, .of_out rfl⟩
    | some identity =>
        dsimp only
        have mapped : Unbrought own ours (({ p with
            knownMembers := member.memberId :: p.knownMembers } : MediaPool).mapIdentity
              member.memberId identity) := by
          refine { own := fun other has => ?_, tracks := fun s there => ?_, pending := h.pending }
          · obtain ⟨is_own, rfl⟩ | ⟨-, before⟩ := of_lookup_insert has
            · exact promised is_own.symm _ is_identity
            · exact h.own other before
          · obtain ⟨other, has, not_ours⟩ := h.tracks s there
            refine ⟨other, ?_, not_ours⟩
            refine (AList.lookup_insert_ne fun same => known ?_).trans has
            rw [← same]
            exact attributed.streams there
        obtain ⟨flushed, untold⟩ := @unbrought_flushTracks _ own ours mapped member.memberId
          identity (AList.lookup_insert _)
        refine ⟨?_, ?_⟩
        · refine Unbrought.of_same ?_ (quiet_flushKeys _ _).identities
            (congrArg Media.tracks (quiet_flushKeys _ _).media)
            (congrArg Media.pendingTracks (quiet_flushKeys _ _).media)
          split_ifs
          · exact flushed.of_same rfl rfl rfl
          · exact flushed
        · refine Untold.trans ?_ (untold_flushKeys _ _)
          have toFlushed : Untold own p _ := Untold.trans (.of_out rfl) untold
          split_ifs
          · exact toFlushed.trans (untold_emit (by simp [streamMember]))
          · exact toFlushed

theorem unbrought_joinAll (snapshot : List JoinedMembership) (h : Unbrought own ours p)
    (attributed : Attributed p)
    (promised : ∀ member ∈ snapshot, member.memberId = own →
      ∀ identity ∈ remoteIdentity p.transports member, identity ∈ ours) :
    Unbrought own ours (snapshot.foldl MediaPool.joinMember p) ∧
      Untold own p (snapshot.foldl MediaPool.joinMember p) := by
  induction snapshot generalizing p with
  | nil => exact ⟨h, .refl p⟩
  | cons member rest ih =>
      obtain ⟨joined, untold⟩ := unbrought_joinMember h attributed (promised member (.head _))
      obtain ⟨last, untold'⟩ := ih joined (attributed.joinMember member) fun other there => by
        rw [transports_joinMember]
        exact promised other (.tail _ there)
      exact ⟨last, untold.trans untold'⟩

theorem unbrought_applySnapshot (h : Unbrought own ours p) (attributed : Attributed p)
    {snapshot : List JoinedMembership}
    (promised : ∀ member ∈ snapshot, member.memberId = own →
      ∀ identity ∈ remoteIdentity p.transports member, identity ∈ ours) :
    Unbrought own ours (p.applySnapshot snapshot) ∧ Untold own p (p.applySnapshot snapshot) := by
  have remains := remains_forgetDeparted attributed snapshot
  obtain ⟨joined, untold⟩ := unbrought_joinAll snapshot (unbrought_forgetDeparted h snapshot)
    remains.attributed (remains.transports ▸ promised)
  have noted : Unbrought own ours { snapshot.foldl MediaPool.joinMember (p.forgetDeparted snapshot)
      with membersSnapshot := snapshot } := joined.of_same rfl rfl rfl
  obtain ⟨last, untold'⟩ := noted.steps steps_reconcilePool
  obtain ⟨events, out, other⟩ := untold
  obtain ⟨later, out', other'⟩ := untold'
  refine ⟨last, events ++ later, ?_, fun event there => ?_⟩
  · rw [MediaPool.applySnapshot, out', ← List.append_assoc, ← remains.out, ← out]
  · obtain there | there := List.mem_append.mp there
    · exact other event there
    · exact other' event there

theorem unbrought_trackAdded (h : Unbrought own ours p) (attributed : Attributed p)
    {identity : String} (other : identity ∉ ours) (key : String) (kind : MediaStreamKind)
    (track : ℕ) :
    Unbrought own ours (p.trackAdded key identity kind track) ∧
      Untold own p (p.trackAdded key identity kind track) := by
  unfold MediaPool.trackAdded
  cases mapped : p.identityMap.lookup identity with
  | some memberId =>
      obtain ⟨added, untold, -⟩ := unbrought_addTrack h (attributed.named mapped) other kind
        ⟨key, track⟩
      exact ⟨added, untold⟩
  | none =>
      refine
        ⟨{ own := h.own, tracks := h.tracks, pending := fun is_ours there => ?_ }, .of_out rfl⟩
      have differs : is_ours ≠ identity := by
        rintro rfl
        exact other there
      dsimp only
      rw [AList.lookup_insert_ne differs]
      exact h.pending is_ours there

theorem out_muted (identity : String) (kind : MediaStreamKind) (muted : Bool) :
    (p.muted identity kind muted).out = p.out ++
      ((p.identityMap.lookup identity).map fun memberId =>
        PoolEvent.streamMuted memberId kind muted).toList := by
  unfold MediaPool.muted
  cases p.identityMap.lookup identity with
  | none => exact (List.append_nil _).symm
  | some memberId => rfl

theorem unbrought_muted (h : Unbrought own ours p) (identity : String) (kind : MediaStreamKind)
    (muted : Bool) : Unbrought own ours (p.muted identity kind muted) :=
  h.of_same (quiet_muted identity kind muted).identities
    (congrArg Media.tracks (quiet_muted identity kind muted).media)
    (congrArg Media.pendingTracks (quiet_muted identity kind muted).media)

/-- A call that is as promised brings no media of ours, and tells of none but by a mute. -/
theorem unbrought_perform (h : Unbrought own ours p) (attributed : Attributed p) {input : Input}
    (promised : Promised own ours p.transports input.call) :
    Unbrought own ours (p.perform input) ∧
      (tellsMute input.call = false → Untold own p (p.perform input)) := by
  obtain ⟨call, now, takeOver⟩ := input
  by_cases plain : isPlain call = true
  · obtain ⟨last, untold⟩ := h.steps (@steps_perform p ⟨call, now, takeOver⟩ plain)
    exact ⟨last, fun _ => untold⟩
  · cases call with
    | applySnapshot snapshot =>
        obtain ⟨last, untold⟩ := unbrought_applySnapshot h attributed promised
        exact ⟨last, fun _ => untold⟩
    | setConstraints memberId kind constraints =>
        exact ⟨h.of_same rfl rfl rfl, fun _ => .of_out rfl⟩
    | handle message =>
        cases message with
        | connection key generation event =>
            unfold MediaPool.perform MediaPool.handle
            dsimp only
            split_ifs with current
            · cases event with
              | trackAdded identity kind track =>
                  obtain ⟨last, untold⟩ :=
                    unbrought_trackAdded h attributed promised key kind track
                  exact ⟨last, fun _ => untold⟩
              | trackMuted identity kind =>
                  exact ⟨unbrought_muted h identity kind true, fun other => by cases other⟩
              | trackUnmuted identity kind =>
                  exact ⟨unbrought_muted h identity kind false, fun other => by cases other⟩
              | _ => exact absurd rfl plain
            · exact ⟨h, fun _ => .refl p⟩
        | _ => exact absurd rfl plain
    | _ => exact absurd rfl plain

end

end MatrixRtc.OwnMedia

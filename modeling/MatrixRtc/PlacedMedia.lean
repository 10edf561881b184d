import MatrixRtc.PoolSignals

/-!
# Where the media of an identity is kept

The tracks that come under an identity are buffered until a member has it, and those of a
member go back to the buffer where it departs. What is kept of an identity is the same
wherever it is: departures and arrivals move it, and only the events of its connection
change it.
-/
namespace MatrixRtc.PlacedMedia
open MemberEvents MediaTransports Tables MediaPools PoolMoves PoolMembers PoolSignals

/-- A track by its kind. -/
abbrev KindTrack := MediaStreamKind × PooledTrack

/-- What is kept of an identity: buffered, or as its member's. -/
def mediaAt (p : MediaPool) (identity : String) : List KindTrack :=
  (p.pendingTracks.lookup identity).getD [] ++
    ((p.identityMap.lookup identity).map p.tracksOf).getD []

section
variable {p q : MediaPool}

theorem mem_tracksOf {memberId : String} {t : KindTrack} :
    t ∈ p.tracksOf memberId ↔ p.tracks.lookup (memberId, t.1) = some t.2 := by
  rw [lookup_eq_some_iff, MediaPool.tracksOf, List.mem_map]
  constructor
  · rintro ⟨⟨⟨other, kind⟩, pooled⟩, there, rfl⟩
    obtain ⟨kept, is_member⟩ := List.mem_filter.mp there
    obtain rfl : other = memberId := beq_iff_eq.mp is_member
    exact kept
  · intro there
    exact ⟨_, List.mem_filter.mpr ⟨there, beq_self_eq_true memberId⟩, rfl⟩

theorem mem_mediaAt_of_none {identity : String} (none_ : p.identityMap.lookup identity = none)
    {t : KindTrack} :
    t ∈ mediaAt p identity ↔ t ∈ (p.pendingTracks.lookup identity).getD [] := by
  rw [mediaAt, none_]
  simp

theorem mem_mediaAt_of_some {identity memberId : String}
    (mapped : p.identityMap.lookup identity = some memberId) {t : KindTrack} :
    t ∈ mediaAt p identity ↔ t ∈ (p.pendingTracks.lookup identity).getD [] ∨
      p.tracks.lookup (memberId, t.1) = some t.2 := by
  rw [mediaAt, mapped, List.mem_append, Option.map_some, Option.getD_some, mem_tracksOf]

/-- The pool keeps the kinds that `kinds` says of the identity, all from one connection, under
the member that has it if one has. -/
structure Placed (identity key : String) (kinds : MediaStreamKind → Prop) (p : MediaPool) :
    Prop where
  named : ∀ {memberId}, p.memberIdentities.lookup memberId = some identity →
    p.identityMap.lookup identity = some memberId
  buffer : ∀ {memberId}, p.identityMap.lookup identity = some memberId →
    p.pendingTracks.lookup identity = none
  kinds : ∀ kind, (∃ pooled, (kind, pooled) ∈ mediaAt p identity) ↔ kinds kind
  keyed : ∀ t ∈ mediaAt p identity, t.2.connectionKey = key

variable {identity key : String} {kinds : MediaStreamKind → Prop}

theorem lookup_forgetMember_tracks {memberId : String} (s : Stream) :
    (p.forgetMember memberId).tracks.lookup s =
      if s.1 = memberId then none else p.tracks.lookup s := by
  refine (lookup_retain p.tracks _ s).trans ?_
  split_ifs with same
  · cases p.tracks.lookup s <;> simp [Option.filter, same]
  · cases p.tracks.lookup s <;> simp [Option.filter, same]

theorem lookup_forgetMember_identities {memberId other : String} :
    (p.forgetMember memberId).memberIdentities.lookup other =
      if other = memberId then none else p.memberIdentities.lookup other := by
  split_ifs with same
  · rw [same]
    exact AList.lookup_erase _ _
  · exact AList.lookup_erase_ne same

/-- A departure buffers what its member has under its identity. -/
theorem pending_forgetMember {memberId : String} :
    ((p.forgetMember memberId).pendingTracks.lookup identity).getD [] =
      (p.pendingTracks.lookup identity).getD [] ++
        if p.memberIdentities.lookup memberId = some identity then p.tracksOf memberId else [] := by
  change ((p.pendingWith (p.memberIdentities.lookup memberId)
    (p.tracksOf memberId)).lookup identity).getD [] = _
  cases is_identity : p.memberIdentities.lookup memberId with
  | none => simp [MediaPool.pendingWith]
  | some own =>
      unfold MediaPool.pendingWith
      dsimp only
      by_cases same : own = identity
      · subst same
        rw [if_pos rfl]
        split_ifs with none_
        · rw [List.isEmpty_iff.mp none_, List.append_nil]
        · rw [AList.lookup_insert, Option.getD_some]
      · rw [if_neg fun h => same (Option.some.inj h), List.append_nil]
        split_ifs
        · rfl
        · rw [AList.lookup_insert_ne (Ne.symm same)]

/-- What is kept of an identity stays kept where a member departs. -/
theorem mediaAt_forgetMember (inv : Attributed p) (h : Placed identity key kinds p)
    (memberId : String) (t : KindTrack) :
    t ∈ mediaAt (p.forgetMember memberId) identity ↔ t ∈ mediaAt p identity := by
  have mapping := forgetMember_lookup p memberId identity
  by_cases has : p.memberIdentities.lookup memberId = some identity
  · have mapped := h.named has
    have unmapped : (p.forgetMember memberId).identityMap.lookup identity = none := by
      rw [mapping, mapped]
      simp [Option.filter]
    rw [mem_mediaAt_of_none unmapped, pending_forgetMember, if_pos has, mem_mediaAt_of_some mapped,
      List.mem_append, mem_tracksOf]
  · have kept : (p.forgetMember memberId).identityMap.lookup identity =
        p.identityMap.lookup identity := by
      rw [mapping]
      cases mapped : p.identityMap.lookup identity with
      | none => rfl
      | some holder =>
          have differs : holder ≠ memberId := fun same => has (same ▸ inv.named mapped)
          simp [Option.filter, differs]
    cases mapped : p.identityMap.lookup identity with
    | none =>
        rw [mem_mediaAt_of_none (kept.trans mapped), mem_mediaAt_of_none mapped,
          pending_forgetMember, if_neg has, List.append_nil]
    | some holder =>
        have differs : holder ≠ memberId := fun same => has (same ▸ inv.named mapped)
        rw [mem_mediaAt_of_some (kept.trans mapped), mem_mediaAt_of_some mapped,
          pending_forgetMember, if_neg has, List.append_nil, lookup_forgetMember_tracks,
          if_neg differs]

theorem Placed.forgetMember (h : Placed identity key kinds p) (inv : Attributed p)
    (memberId : String) : Placed identity key kinds (p.forgetMember memberId) where
  named {other} has := by
    rw [lookup_forgetMember_identities] at has
    split_ifs at has with same
    rw [forgetMember_lookup, h.named has]
    simp [Option.filter, same]
  buffer {holder} mapped := by
    rw [forgetMember_lookup, Option.filter_eq_some_iff, bne_iff_ne] at mapped
    obtain ⟨mapped, differs⟩ := mapped
    have other : p.memberIdentities.lookup memberId ≠ some identity := fun has =>
      differs (Option.some.inj (mapped.symm.trans (h.named has)))
    change (p.pendingWith (p.memberIdentities.lookup memberId)
      (p.tracksOf memberId)).lookup identity = none
    unfold MediaPool.pendingWith
    split
    · next own is_own =>
        split_ifs
        · exact h.buffer mapped
        · rw [AList.lookup_insert_ne fun same => other (is_own.trans (congrArg some same.symm))]
          exact h.buffer mapped
    · exact h.buffer mapped
  kinds kind := by
    simp only [mediaAt_forgetMember inv h]
    exact h.kinds kind
  keyed t there := h.keyed t ((mediaAt_forgetMember inv h memberId t).mp there)

theorem Placed.forgetDeparted (h : Placed identity key kinds p) (inv : Attributed p)
    (snapshot : List JoinedMembership) : Placed identity key kinds (p.forgetDeparted snapshot) := by
  unfold MediaPool.forgetDeparted
  extract_lets current departed
  clear_value departed
  induction departed generalizing p with
  | nil => exact h
  | cons memberId rest ih => exact ih (h.forgetMember inv memberId) (inv.forgetMember memberId)

theorem quiet_placed (p : MediaPool) (memberId : String) (kind : MediaStreamKind)
    (pooled : PooledTrack) :
    mediaOf (p.addTrack memberId kind pooled) =
        { mediaOf p with tracks := p.tracks.insert (memberId, kind) pooled } ∧
      attributionOf (p.addTrack memberId kind pooled) = attributionOf p := by
  obtain ⟨events, -, quiet⟩ := addTrack_spec p memberId kind pooled
  exact ⟨quiet.media, quiet.attribution⟩

/-- What a member has once the buffered tracks are added to those it had. -/
structure Flushed (memberId : String) (pending : List KindTrack) (p q : MediaPool) : Prop where
  attribution : attributionOf q = attributionOf p
  pending_ : q.pendingTracks = p.pendingTracks
  others : ∀ s : Stream, s.1 ≠ memberId → q.tracks.lookup s = p.tracks.lookup s
  has : ∀ kind, (memberId, kind) ∈ q.tracks ↔
    (memberId, kind) ∈ p.tracks ∨ ∃ pooled, (kind, pooled) ∈ pending
  origin : ∀ kind pooled, q.tracks.lookup (memberId, kind) = some pooled →
    p.tracks.lookup (memberId, kind) = some pooled ∨ (kind, pooled) ∈ pending

theorem flushed_foldl (memberId : String) (pending : List KindTrack) (p : MediaPool) :
    Flushed memberId pending p
      (pending.foldl (fun p (kind, pooled) => p.addTrack memberId kind pooled) p) := by
  induction pending generalizing p with
  | nil => exact ⟨rfl, rfl, fun _ _ => rfl, fun _ => by simp, fun _ _ found => .inl found⟩
  | cons t rest ih =>
      obtain ⟨kind, pooled⟩ := t
      obtain ⟨media, attribution⟩ := quiet_placed p memberId kind pooled
      have tracks : (p.addTrack memberId kind pooled).tracks =
        p.tracks.insert (memberId, kind) pooled := congrArg Media.tracks media
      have later := ih (p.addTrack memberId kind pooled)
      refine ⟨later.attribution.trans attribution,
        later.pending_.trans (congrArg Media.pendingTracks media), fun s other => ?_,
        fun kind' => ?_, fun kind' pooled' found => ?_⟩
      · refine (later.others s other).trans ?_
        rw [tracks, AList.lookup_insert_ne fun same => other (congrArg Prod.fst same)]
      · refine (later.has kind').trans ?_
        rw [tracks, AList.mem_insert]
        simp only [Prod.mk.injEq, true_and, List.mem_cons]
        constructor
        · rintro ((rfl | there) | ⟨pooled', there⟩)
          · exact .inr ⟨pooled, .inl ⟨rfl, rfl⟩⟩
          · exact .inl there
          · exact .inr ⟨pooled', .inr there⟩
        · rintro (there | ⟨pooled', ⟨rfl, rfl⟩ | there⟩)
          · exact .inl (.inr there)
          · exact .inl (.inl rfl)
          · exact .inr ⟨pooled', there⟩
      · obtain before | there := later.origin kind' pooled' found
        · rw [tracks] at before
          obtain ⟨same, rfl⟩ | ⟨-, before⟩ := of_lookup_insert before
          · exact .inr (List.mem_cons.mpr (.inl (Prod.ext (congrArg Prod.snd same) rfl)))
          · exact .inl before
        · exact .inr (.tail _ there)

theorem flushed_addTrack (p : MediaPool) (memberId : String) (kind : MediaStreamKind)
    (pooled : PooledTrack) :
    Flushed memberId [(kind, pooled)] p (p.addTrack memberId kind pooled) :=
  flushed_foldl memberId [(kind, pooled)] p

theorem flushed_flushTracks (p : MediaPool) (memberId own : String) :
    Flushed memberId ((p.pendingTracks.lookup own).getD [])
      { p with pendingTracks := p.pendingTracks.erase own } (p.flushTracks memberId own) := by
  unfold MediaPool.flushTracks
  exact flushed_foldl memberId _ _

/-- The part of a pool that says where media is kept. -/
def placeOf (p : MediaPool) :
    Table String String × Table String String × Table String (List KindTrack) ×
      Table Stream PooledTrack :=
  (p.identityMap, p.memberIdentities, p.pendingTracks, p.tracks)

theorem Placed.of_place (h : Placed identity key kinds p) (same : placeOf q = placeOf p) :
    Placed identity key kinds q := by
  obtain ⟨mapping, rest⟩ := Prod.mk.inj same
  obtain ⟨identities, rest⟩ := Prod.mk.inj rest
  obtain ⟨pending, tracks⟩ := Prod.mk.inj rest
  have media : mediaAt q identity = mediaAt p identity := by
    unfold mediaAt MediaPool.tracksOf
    rw [mapping, pending, tracks]
  exact
    { named := by rw [identities, mapping]; exact h.named
      buffer := by rw [mapping, pending]; exact h.buffer
      kinds := by rw [media]; exact h.kinds
      keyed := by rw [media]; exact h.keyed }

theorem place_of_quiet (h : Quiet p q) : placeOf q = placeOf p := by
  have tracks : q.tracks = p.tracks := congrArg Media.tracks h.media
  have pending : q.pendingTracks = p.pendingTracks := congrArg Media.pendingTracks h.media
  rw [placeOf, h.mapping, h.identities, tracks, pending]
  rfl

/-- What is kept of an identity nobody has goes to the member that gets it. -/
theorem Placed.mapOwn (h : Placed identity key kinds p) {memberId : String}
    (free : p.identityMap.lookup identity = none)
    (bare : ∀ kind, (memberId, kind) ∉ p.tracks) :
    Placed identity key kinds ((p.mapIdentity memberId identity).flushTracks memberId identity) := by
  have flushed := flushed_flushTracks (p.mapIdentity memberId identity) memberId identity
  generalize (p.mapIdentity memberId identity).flushTracks memberId identity = q at flushed
  have mapping : q.identityMap = p.identityMap.insert identity memberId :=
    congrArg Attribution.identityMap flushed.attribution
  have identities : q.memberIdentities = p.memberIdentities.insert memberId identity :=
    congrArg Attribution.memberIdentities flushed.attribution
  have mapped : q.identityMap.lookup identity = some memberId := by
    rw [mapping, AList.lookup_insert]
  have emptied : q.pendingTracks.lookup identity = none := by
    rw [flushed.pending_]
    exact AList.lookup_erase _ _
  have media (t : KindTrack) : t ∈ mediaAt q identity ↔
      q.tracks.lookup (memberId, t.1) = some t.2 := by
    rw [mem_mediaAt_of_some mapped, emptied, Option.getD_none]
    exact or_iff_right List.not_mem_nil
  refine ⟨fun {other} has => ?_, fun _ => emptied, fun kind => ?_, fun t there => ?_⟩
  · rw [identities] at has
    obtain ⟨rfl, -⟩ | ⟨-, before⟩ := of_lookup_insert has
    · exact mapped
    · rw [h.named before] at free
      cases free
  · rw [← h.kinds kind]
    simp only [media, mem_mediaAt_of_none free]
    rw [← Option.isSome_iff_exists, AList.lookup_isSome, flushed.has kind]
    exact or_iff_right (bare kind)
  · obtain before | buffered := flushed.origin t.1 t.2 ((media t).mp there)
    · exact absurd (AList.lookup_isSome.mp (Option.isSome_of_mem before)) (bare t.1)
    · exact h.keyed t ((mem_mediaAt_of_none free).mpr buffered)

/-- A member that gets another identity leaves what is kept of this one. -/
theorem Placed.mapOther (h : Placed identity key kinds p) {memberId own : String}
    (differs : own ≠ identity) (other : p.identityMap.lookup identity ≠ some memberId) :
    Placed identity key kinds ((p.mapIdentity memberId own).flushTracks memberId own) := by
  have flushed := flushed_flushTracks (p.mapIdentity memberId own) memberId own
  generalize (p.mapIdentity memberId own).flushTracks memberId own = q at flushed
  have mapping : q.identityMap = p.identityMap.insert own memberId :=
    congrArg Attribution.identityMap flushed.attribution
  have identities : q.memberIdentities = p.memberIdentities.insert memberId own :=
    congrArg Attribution.memberIdentities flushed.attribution
  have same : q.identityMap.lookup identity = p.identityMap.lookup identity := by
    rw [mapping, AList.lookup_insert_ne differs.symm]
  have pending : q.pendingTracks.lookup identity = p.pendingTracks.lookup identity := by
    rw [flushed.pending_]
    exact AList.lookup_erase_ne differs.symm
  have media (t : KindTrack) : t ∈ mediaAt q identity ↔ t ∈ mediaAt p identity := by
    cases mapped : p.identityMap.lookup identity with
    | none => rw [mem_mediaAt_of_none (same.trans mapped), mem_mediaAt_of_none mapped, pending]
    | some holder =>
        rw [mem_mediaAt_of_some (same.trans mapped), mem_mediaAt_of_some mapped, pending,
          flushed.others _ fun is_member => other (mapped.trans (congrArg some is_member))]
        rfl
  refine ⟨fun {holder} has => ?_, fun mapped => ?_, fun kind => ?_, fun t there => ?_⟩
  · rw [identities] at has
    obtain ⟨-, is_own⟩ | ⟨-, before⟩ := of_lookup_insert has
    · exact absurd is_own.symm differs
    · exact same.trans (h.named before)
  · exact pending.trans (h.buffer (same.symm.trans mapped))
  · simp only [media]
    exact h.kinds kind
  · exact h.keyed t ((media t).mp there)

theorem place_mapMember {member : JoinedMembership} {own : String}
    (is_own : remoteIdentity p.transports member = some own) :
    placeOf (p.mapMember member) =
      placeOf ((p.mapIdentity member.memberId own).flushTracks member.memberId own) := by
  unfold MediaPool.mapMember
  rw [is_own]
  dsimp only
  refine (place_of_quiet (quiet_flushKeys _ _)).trans ?_
  split_ifs <;> rfl

/-- What is kept of an identity stays kept where a member arrives: under it if it is the first
to have the identity. -/
theorem Placed.joinMember (h : Placed identity key kinds p) (inv : Attributed p)
    (member : JoinedMembership)
    (free : member.memberId ∉ p.knownMembers →
      remoteIdentity p.transports member = some identity →
        p.identityMap.lookup identity = none) :
    Placed identity key kinds (p.joinMember member) := by
  by_cases known : member.memberId ∈ p.knownMembers
  · rw [joinMember_known known]
    exact h
  · rw [MediaPool.joinMember, if_neg fun there => known (List.contains_iff_mem.mp there)]
    generalize entered : ({ p with knownMembers := member.memberId :: p.knownMembers } :
      MediaPool) = q
    have place : placeOf q = placeOf p := by
      rw [← entered]
      rfl
    have transports : q.transports = p.transports := by rw [← entered]
    have mapping : q.identityMap = p.identityMap := by rw [← entered]
    have tracks : q.tracks = p.tracks := by rw [← entered]
    have placed := h.of_place place
    cases is_own : remoteIdentity q.transports member with
    | none =>
        rw [MediaPool.mapMember, is_own]
        exact placed
    | some own =>
        refine Placed.of_place ?_ (place_mapMember is_own)
        by_cases same : own = identity
        · subst same
          refine placed.mapOwn ?_ fun kind there => known (inv.streams (tracks ▸ there))
          rw [mapping]
          exact free known (transports ▸ is_own)
        · refine placed.mapOther same fun mapped => ?_
          have before : p.identityMap.lookup identity = some member.memberId := mapping ▸ mapped
          exact known (inv.known before)

/-- Another buffer in the place of that of an identity nobody has. -/
theorem Placed.rebuffer (h : Placed identity key kinds p)
    (free : p.identityMap.lookup identity = none) {pending : List KindTrack}
    {kinds' : MediaStreamKind → Prop}
    (each : ∀ kind, (∃ pooled, (kind, pooled) ∈ pending) ↔ kinds' kind)
    (keyed : ∀ t ∈ pending, t.2.connectionKey = key) :
    Placed identity key kinds'
      { p with pendingTracks := p.pendingTracks.insert identity pending } := by
  have media (t : KindTrack) :
      t ∈ mediaAt { p with pendingTracks := p.pendingTracks.insert identity pending } identity ↔
        t ∈ pending := by
    rw [mem_mediaAt_of_none (by exact free), AList.lookup_insert, Option.getD_some]
  refine ⟨h.named, fun mapped => ?_, fun kind => ?_, fun t there => keyed t ((media t).mp there)⟩
  · rw [show p.identityMap.lookup identity = some _ from mapped] at free
    cases free
  · simp only [media]
    exact each kind

/-- A track that is added is kept, wherever media of the identity is. -/
theorem Placed.trackAdded (h : Placed identity key kinds p) (kind : MediaStreamKind)
    (track : ℕ) :
    Placed identity key (fun other => kinds other ∨ other = kind)
      (p.trackAdded key identity kind track) := by
  unfold MediaPool.trackAdded
  cases mapped : p.identityMap.lookup identity with
  | some memberId =>
      dsimp only
      have flushed := flushed_addTrack p memberId kind ⟨key, track⟩
      generalize p.addTrack memberId kind ⟨key, track⟩ = q at flushed
      have mapping : q.identityMap = p.identityMap :=
        congrArg Attribution.identityMap flushed.attribution
      have identities : q.memberIdentities = p.memberIdentities :=
        congrArg Attribution.memberIdentities flushed.attribution
      have emptied := h.buffer mapped
      have media (t : KindTrack) : t ∈ mediaAt q identity ↔
          q.tracks.lookup (memberId, t.1) = some t.2 := by
        rw [mem_mediaAt_of_some (mapping ▸ mapped), flushed.pending_, emptied, Option.getD_none]
        exact or_iff_right List.not_mem_nil
      have before (t : KindTrack) : t ∈ mediaAt p identity ↔
          p.tracks.lookup (memberId, t.1) = some t.2 := by
        rw [mem_mediaAt_of_some mapped, emptied, Option.getD_none]
        exact or_iff_right List.not_mem_nil
      refine ⟨fun has => ?_, fun _ => flushed.pending_ ▸ emptied, fun other => ?_,
        fun t there => ?_⟩
      · rw [mapping]
        exact h.named (identities ▸ has)
      · rw [← h.kinds other]
        simp only [media, before]
        rw [← Option.isSome_iff_exists, ← Option.isSome_iff_exists, AList.lookup_isSome,
          AList.lookup_isSome, flushed.has other]
        simp
      · obtain old | new := flushed.origin t.1 t.2 ((media t).mp there)
        · exact h.keyed t ((before t).mpr old)
        · rw [congrArg Prod.snd (List.mem_singleton.mp new)]
  | none =>
      dsimp only
      refine h.rebuffer mapped (fun other => ?_) fun t there => ?_
      · rw [← h.kinds other]
        simp only [mem_mediaAt_of_none mapped, List.mem_append, List.mem_singleton, exists_or,
          Prod.mk.injEq, exists_and_left, exists_eq, and_true]
      · obtain old | new := List.mem_append.mp there
        · exact h.keyed t ((mem_mediaAt_of_none mapped).mpr old)
        · rw [List.mem_singleton.mp new]

/-- A track that is removed is kept no more, wherever media of the identity is. -/
theorem Placed.trackRemoved (h : Placed identity key kinds p) (kind : MediaStreamKind) :
    Placed identity key (fun other => kinds other ∧ other ≠ kind)
      (p.trackRemoved key identity kind) := by
  unfold MediaPool.trackRemoved
  cases mapped : p.identityMap.lookup identity with
  | some memberId =>
      dsimp only
      have emptied := h.buffer mapped
      have before (t : KindTrack) : t ∈ mediaAt p identity ↔
          p.tracks.lookup (memberId, t.1) = some t.2 := by
        rw [mem_mediaAt_of_some mapped, emptied, Option.getD_none]
        exact or_iff_right List.not_mem_nil
      unfold MediaPool.removeTrack
      split_ifs with there
      · have media (t : KindTrack) : t ∈ mediaAt (MediaPool.emit
              { p with tracks := p.tracks.erase (memberId, kind) } (.streamRemoved memberId kind))
            identity ↔ t ∈ mediaAt p identity ∧ t.1 ≠ kind := by
          rw [before, mem_mediaAt_of_some (by exact mapped)]
          change t ∈ (p.pendingTracks.lookup identity).getD [] ∨
            (p.tracks.erase (memberId, kind)).lookup (memberId, t.1) = some t.2 ↔ _
          rw [emptied, Option.getD_none]
          by_cases same : t.1 = kind
          · rw [same, AList.lookup_erase]
            simp
          · rw [AList.lookup_erase_ne fun h => same (congrArg Prod.snd h)]
            simp [same]
        refine ⟨h.named, h.buffer, fun other => ?_, fun t kept => ?_⟩
        · rw [← h.kinds other]
          simp only [media, exists_and_right]
        · exact h.keyed t ((media t).mp kept).1
      · -- what is there came over this connection: there is no track of the kind
        have gone : ¬ kinds kind := by
          intro is_kept
          obtain ⟨pooled, kept⟩ := (h.kinds kind).mpr is_kept
          refine there ?_
          rw [show p.tracks.lookup (memberId, kind) = some pooled from (before _).mp kept,
            Option.any_some]
          exact beq_iff_eq.mpr (h.keyed _ kept)
        refine ⟨h.named, h.buffer, fun other => (h.kinds other).trans ?_, h.keyed⟩
        refine (and_iff_left_of_imp fun is_kept same => ?_).symm
        subst same
        exact gone is_kept
  | none =>
      dsimp only
      cases buffered : p.pendingTracks.lookup identity with
      | none =>
          have empty (t : KindTrack) : t ∉ mediaAt p identity := by
            rw [mem_mediaAt_of_none mapped, buffered]
            exact List.not_mem_nil
          refine ⟨h.named, h.buffer, fun other => (h.kinds other).trans ?_, h.keyed⟩
          refine (and_iff_left_of_imp fun is_kept => ?_).symm
          obtain ⟨pooled, there⟩ := (h.kinds other).mpr is_kept
          exact absurd there (empty _)
      | some pending =>
          dsimp only
          have kept (t : KindTrack) : (t ∈ pending.filter fun buffered =>
                buffered.1 != kind || buffered.2.connectionKey != key) ↔
              t ∈ mediaAt p identity ∧ t.1 ≠ kind := by
            rw [List.mem_filter, mem_mediaAt_of_none mapped, buffered, Option.getD_some]
            refine and_congr_right fun there => ?_
            have keyed : t.2.connectionKey = key :=
              h.keyed t ((mem_mediaAt_of_none mapped).mpr (buffered ▸ there))
            simp [keyed]
          refine h.rebuffer mapped (fun other => ?_) fun t there => h.keyed t ((kept t).mp there).1
          rw [← h.kinds other]
          simp only [kept, exists_and_right]

end

end MatrixRtc.PlacedMedia

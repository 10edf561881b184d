import MatrixRtc.CallTiles

/-!
# Every client ranks the tiles alike

The key of a tile ends with its id, so tiles of distinct members never tie, and the order of
the roster does not matter. What a member does moves its own tiles only, and in a small call
not even those.
-/
namespace MatrixRtc.TileRanks
open MediaTransports MediaPools HostRosters KeySorts CallTiles

variable {roster roster' : List Participant} {speaking speaking' rankedSpeaking : List String}

def DistinctIds (roster : List Participant) : Prop := (roster.map (·.memberId)).Nodup

instance (roster : List Participant) : Decidable (DistinctIds roster) :=
  inferInstanceAs (Decidable (List.Nodup _))

/-- The remote tiles as the roster has them, before they are ranked. -/
def remoteTiles (roster : List Participant) (speaking : List String) : List CallTile :=
  roster.flatMap (tilesOf speaking)

theorem mem_tilesOf {p : Participant} {t : CallTile} :
    t ∈ tilesOf speaking p ↔ p.isLocal = false ∧
      (t = tile p .person speaking ∨
        (stream p .screenShare).isSome = true ∧ t = tile p .screenShare speaking) := by
  unfold tilesOf
  split_ifs <;> simp_all

theorem tilesOf_memberId {p : Participant} {t : CallTile} (h : t ∈ tilesOf speaking p) :
    t.memberId = p.memberId := by
  obtain ⟨_, rfl | ⟨_, rfl⟩⟩ := mem_tilesOf.mp h <;> rfl

theorem tilesOf_eq_tile {p : Participant} {t : CallTile} (h : t ∈ tilesOf speaking p) :
    t = tile p t.kind speaking := by
  obtain ⟨_, rfl | ⟨_, rfl⟩⟩ := mem_tilesOf.mp h <;> rfl

theorem remoteTiles_eq_of_id (distinct : DistinctIds roster) {x y : CallTile}
    (hx : x ∈ remoteTiles roster speaking) (hy : y ∈ remoteTiles roster speaking)
    (same : x.id = y.id) : x = y := by
  obtain ⟨p, hp, xOf⟩ := List.mem_flatMap.mp hx
  obtain ⟨q, hq, yOf⟩ := List.mem_flatMap.mp hy
  have member : x.memberId = y.memberId := congrArg TileId.memberId same
  have kind : x.kind = y.kind := congrArg TileId.kind same
  rw [tilesOf_memberId xOf, tilesOf_memberId yOf] at member
  have one : p = q := List.inj_on_of_nodup_map distinct hp hq member
  rw [tilesOf_eq_tile xOf, tilesOf_eq_tile yOf, one, kind]

theorem kindRank_injective : Function.Injective kindRank := by
  intro x y h
  cases x <;> cases y <;> first | rfl | cases h

theorem id_of_rankKey {x y : CallTile} {active active' speaks speaks' : Bool}
    (same : rankKey x active speaks = rankKey y active' speaks') : x.id = y.id := by
  simp only [rankKey, toLex_inj, Prod.mk.injEq] at same
  obtain ⟨_, _, _, _, _, member, kind⟩ := same
  exact congrArg₂ TileId.mk member (kindRank_injective kind)

theorem distinct_keys (distinct : DistinctIds roster) (active : Bool)
    (rankedSpeaking : List String) :
    ∀ x ∈ remoteTiles roster speaking, ∀ y ∈ remoteTiles roster speaking,
      keyOf active rankedSpeaking x = keyOf active rankedSpeaking y → x = y :=
  fun _ hx _ hy same => remoteTiles_eq_of_id distinct hx hy (id_of_rankKey same)

theorem deriveTiles_perm (distinct : DistinctIds roster) (same : roster.Perm roster')
    (speaking rankedSpeaking : List String) (rankingThreshold : UInt32) :
    (deriveTiles roster' speaking rankedSpeaking rankingThreshold).remote =
      (deriveTiles roster speaking rankedSpeaking rankingThreshold).remote := by
  have tiles : (remoteTiles roster speaking).Perm (remoteTiles roster' speaking) :=
    same.flatMap_right _
  have active : byActivity (remoteTiles roster' speaking) rankingThreshold =
      byActivity (remoteTiles roster speaking) rankingThreshold := by
    rw [byActivity, byActivity, tiles.length_eq]
  rw [deriveTiles_remote, deriveTiles_remote]
  change sortByKey (keyOf (byActivity (remoteTiles roster' speaking) _) _)
    (remoteTiles roster' speaking) = _
  rw [active]
  exact (sortByKey_eq_of_perm (distinct_keys distinct _ _) tiles).symm

theorem byActivity_remote (roster : List Participant) (speaking rankedSpeaking : List String)
    (rankingThreshold : UInt32) :
    byActivity (deriveTiles roster speaking rankedSpeaking rankingThreshold).remote
        rankingThreshold =
      byActivity (remoteTiles roster speaking) rankingThreshold := by
  rw [byActivity, byActivity, deriveTiles_remote, (perm_sortByKey _ _).length_eq]
  rfl

/-- Two sets of speakers that differ in one member at most. -/
def AgreeBut (memberId : String) (speaking speaking' : List String) : Prop :=
  ∀ other, other ≠ memberId → (other ∈ speaking ↔ other ∈ speaking')

theorem AgreeBut.contains {memberId other : String} (agree : AgreeBut memberId speaking speaking')
    (h : other ≠ memberId) : speaking.contains other = speaking'.contains other := by
  rw [Bool.eq_iff_iff, List.contains_iff_mem, List.contains_iff_mem]
  exact agree other h

/-- The tiles of everyone but one member. -/
def others (memberId : String) (tiles : List CallTile) : List CallTile :=
  tiles.filter (·.memberId != memberId)

theorem others_tilesOf (memberId : String) (speaking : List String) (p : Participant) :
    others memberId (tilesOf speaking p) =
      if p.memberId = memberId then [] else tilesOf speaking p := by
  split_ifs with h
  · refine List.filter_eq_nil_iff.mpr fun t ht => ?_
    simp [tilesOf_memberId ht, h]
  · refine List.filter_eq_self.mpr fun t ht => ?_
    simp [tilesOf_memberId ht, h]

theorem others_remoteTiles (memberId : String) (roster : List Participant)
    (speaking : List String) :
    others memberId (remoteTiles roster speaking) =
      remoteTiles (roster.filter (·.memberId != memberId)) speaking := by
  induction roster with
  | nil => rfl
  | cons p rest ih =>
      have head : others memberId (remoteTiles (p :: rest) speaking) =
          others memberId (tilesOf speaking p) ++ others memberId (remoteTiles rest speaking) :=
        List.filter_append ..
      rw [head, ih, others_tilesOf, List.filter_cons]
      by_cases h : p.memberId = memberId
      · simp [h]
      · simp [h, remoteTiles]

theorem tilesOf_agree {memberId : String} (agree : AgreeBut memberId speaking speaking')
    {p : Participant} (h : p.memberId ≠ memberId) :
    tilesOf speaking p = tilesOf speaking' p := by
  simp only [tilesOf, tile, agree.contains h]

theorem remoteTiles_agree {memberId : String} (agree : AgreeBut memberId speaking speaking') :
    remoteTiles (roster.filter (·.memberId != memberId)) speaking =
      remoteTiles (roster.filter (·.memberId != memberId)) speaking' := by
  unfold remoteTiles
  rw [List.flatMap_def, List.flatMap_def]
  congr 1
  refine List.map_congr_left fun p hp => tilesOf_agree agree ?_
  simpa using (List.mem_filter.mp hp).2

theorem others_deriveTiles (distinct : DistinctIds roster) (memberId : String)
    (speaking rankedSpeaking : List String) (rankingThreshold : UInt32) :
    others memberId (deriveTiles roster speaking rankedSpeaking rankingThreshold).remote =
      sortByKey
        (keyOf (byActivity (remoteTiles roster speaking) rankingThreshold) rankedSpeaking)
        (remoteTiles (roster.filter (·.memberId != memberId)) speaking) := by
  rw [deriveTiles_remote, ← others_remoteTiles]
  exact filter_sortByKey _ (distinct_keys distinct _ _)

theorem keyOf_agree {memberId : String} {rankedSpeaking' : List String}
    (agree : AgreeBut memberId rankedSpeaking rankedSpeaking') (active : Bool) {t : CallTile}
    (h : t.memberId ≠ memberId) :
    keyOf active rankedSpeaking t = keyOf active rankedSpeaking' t := by
  rw [keyOf, keyOf, agree.contains h]

/-- The others keep their order, whatever one member changes. -/
theorem others_keep_order {memberId : String} {rankedSpeaking' : List String}
    {rankingThreshold rankingThreshold' : UInt32}
    (distinct : DistinctIds roster) (distinct' : DistinctIds roster')
    (same : roster.filter (·.memberId != memberId) = roster'.filter (·.memberId != memberId))
    (agree : AgreeBut memberId speaking speaking')
    (agreeRanked : AgreeBut memberId rankedSpeaking rankedSpeaking')
    (side : byActivity (remoteTiles roster speaking) rankingThreshold =
      byActivity (remoteTiles roster' speaking') rankingThreshold') :
    others memberId (deriveTiles roster speaking rankedSpeaking rankingThreshold).remote =
      others memberId (deriveTiles roster' speaking' rankedSpeaking' rankingThreshold').remote := by
  rw [others_deriveTiles distinct, others_deriveTiles distinct', side, same,
    remoteTiles_agree agree]
  refine sortByKey_congr fun t ht => keyOf_agree agreeRanked _ ?_
  obtain ⟨p, hp, tOf⟩ := List.mem_flatMap.mp ht
  rw [tilesOf_memberId tOf]
  simpa using (List.mem_filter.mp hp).2

/-- What of a participant has nothing to do with what it does. -/
structure SameSeat (p q : Participant) : Prop where
  memberId : p.memberId = q.memberId
  isLocal : p.isLocal = q.isLocal
  joinedAtMs : p.joinedAtMs = q.joinedAtMs
  sharing : (stream p .screenShare).isSome = (stream q .screenShare).isSome

/-- What of a tile decides its place in a small call. -/
def seatOf (t : CallTile) : TileId × Bool × Option ℕ := (t.id, t.hero, t.joinedAtMs)

def seatKey (seat : TileId × Bool × Option ℕ) : RankKey :=
  toLex (OrderDual.toDual seat.2.1, toLex (noneLast none, toLex (OrderDual.toDual false,
    toLex (OrderDual.toDual false,
      toLex (noneLast seat.2.2, toLex (seat.1.memberId, kindRank seat.1.kind))))))

theorem keyOf_small (rankedSpeaking : List String) : keyOf false rankedSpeaking =
    seatKey ∘ seatOf := by
  funext t
  have unraised : (t.handRaisedAtMs.filter fun _ => false) = none := by
    cases t.handRaisedAtMs <;> rfl
  rw [keyOf, rankKey, unraised]
  rfl

theorem seats_tilesOf {p q : Participant} (same : SameSeat p q) :
    (tilesOf speaking p).map seatOf = (tilesOf speaking' q).map seatOf := by
  unfold tilesOf
  rw [same.isLocal, same.sharing]
  split_ifs <;> simp [seatOf, tile, CallTile.id, same.memberId, same.joinedAtMs]

theorem seats_remoteTiles (same : List.Forall₂ SameSeat roster roster') :
    (remoteTiles roster speaking).map seatOf = (remoteTiles roster' speaking').map seatOf := by
  induction same with
  | nil => rfl
  | cons head _ ih =>
      unfold remoteTiles at ih ⊢
      rw [List.flatMap_cons, List.flatMap_cons, List.map_append, List.map_append, ih,
        seats_tilesOf head]

theorem ids_small {rankingThreshold : UInt32}
    (small : byActivity (remoteTiles roster speaking) rankingThreshold = false) :
    (deriveTiles roster speaking rankedSpeaking rankingThreshold).remote.map (·.id) =
      (sortByKey seatKey ((remoteTiles roster speaking).map seatOf)).map (·.1) := by
  have sorted : (deriveTiles roster speaking rankedSpeaking rankingThreshold).remote =
      sortByKey (seatKey ∘ seatOf) (remoteTiles roster speaking) := by
    rw [deriveTiles_remote, ← keyOf_small rankedSpeaking, ← small]
    rfl
  rw [sorted, ← map_sortByKey, List.map_map]
  rfl

theorem mem_remoteTiles_id {id : TileId} :
    id ∈ (remoteTiles roster speaking).map (·.id) ↔
      ∃ p ∈ roster, p.isLocal = false ∧ id.memberId = p.memberId ∧
        (id.kind = .person ∨ id.kind = .screenShare ∧ (stream p .screenShare).isSome = true) := by
  constructor
  · rintro h
    obtain ⟨t, ht, rfl⟩ := List.mem_map.mp h
    obtain ⟨p, hp, tOf⟩ := List.mem_flatMap.mp ht
    obtain ⟨remote, rfl | ⟨share, rfl⟩⟩ := mem_tilesOf.mp tOf
    · exact ⟨p, hp, remote, rfl, .inl rfl⟩
    · exact ⟨p, hp, remote, rfl, .inr ⟨rfl, share⟩⟩
  · rintro ⟨p, hp, remote, member, kind⟩
    refine List.mem_map.mpr ⟨tile p id.kind speaking,
      List.mem_flatMap.mpr ⟨p, hp, mem_tilesOf.mpr ⟨remote, ?_⟩⟩, ?_⟩
    · rcases kind with person | ⟨share, up⟩
      · exact .inl (by rw [person])
      · exact .inr ⟨up, by rw [share]⟩
    · exact congrArg (TileId.mk · id.kind) member.symm

theorem nodup_tilesOf (speaking : List String) (p : Participant) :
    ((tilesOf speaking p).map (·.id)).Nodup := by
  unfold tilesOf
  split_ifs <;> simp [tile, CallTile.id]

theorem nodup_remoteTiles (distinct : DistinctIds roster) :
    ((remoteTiles roster speaking).map (·.id)).Nodup := by
  induction roster with
  | nil => exact List.nodup_nil
  | cons p rest ih =>
      obtain ⟨fresh, restDistinct⟩ := List.nodup_cons.mp distinct
      have append : (remoteTiles (p :: rest) speaking).map (·.id) =
          (tilesOf speaking p).map (·.id) ++ (remoteTiles rest speaking).map (·.id) :=
        List.map_append
      rw [append]
      refine List.Nodup.append (nodup_tilesOf speaking p) (ih restDistinct) ?_
      intro id here there
      obtain ⟨t, ht, rfl⟩ := List.mem_map.mp here
      obtain ⟨q, hq, _, member, _⟩ := mem_remoteTiles_id.mp there
      refine fresh (List.mem_map.mpr ⟨q, hq, ?_⟩)
      exact member.symm.trans (tilesOf_memberId ht)

theorem perm_remote (roster : List Participant) (speaking rankedSpeaking : List String)
    (rankingThreshold : UInt32) :
    (deriveTiles roster speaking rankedSpeaking rankingThreshold).remote.Perm
      (remoteTiles roster speaking) := by
  rw [deriveTiles_remote]
  exact perm_sortByKey _ _

/-- What a window takes of the ranked tiles. -/
def InWindow (w : DetailWindow) (ranked : CallTile × ℕ) : Prop :=
  w.offset.toNat ≤ ranked.2 ∧ ranked.2 < w.offset.toNat + w.len.toNat ∨ ranked.1.id ∈ w.also

instance (w : DetailWindow) (ranked : CallTile × ℕ) : Decidable (InWindow w ranked) :=
  inferInstanceAs (Decidable (_ ∨ _))

theorem below_saturated (width : PointerWidth) {rank x y : ℕ} (h : rank < width.isizeMax) :
    rank < width.saturatingAdd x y ↔ rank < x + y := by
  have below : width.isizeMax ≤ width.usizeMax := by cases width <;> decide
  rw [PointerWidth.saturatingAdd]
  omega

theorem window_eq {width : PointerWidth} {ranked : List CallTile}
    (fits : ranked.length ≤ width.isizeMax) (w : DetailWindow) :
    window width ranked w =
      { order := ranked.map fun t => ⟨t.id, t.userId, t.hero⟩
        detail := (ranked.zipIdx.filter fun t => decide (InWindow w t)).map Prod.fst } := by
  rw [window, foldl_windowTile, List.nil_append, List.nil_append]
  congr 1
  · have first : (fun t : CallTile × ℕ => (⟨t.1.id, t.1.userId, t.1.hero⟩ : TileRef)) =
        (fun t : CallTile => (⟨t.id, t.userId, t.hero⟩ : TileRef)) ∘ Prod.fst := rfl
    rw [first, ← List.map_map, List.zipIdx_map_fst]
  · congr 1
    refine List.filter_congr fun t ht => ?_
    have rank : t.2 < ranked.length := by
      have := List.snd_lt_of_mem_zipIdx ht
      omega
    have ends := below_saturated width (x := w.offset.toNat) (y := w.len.toNat)
      (lt_of_lt_of_le rank fits)
    rw [Bool.eq_iff_iff, Bool.or_eq_true, decide_eq_true_iff, decide_eq_true_iff, ends,
      List.contains_iff_mem]
    rfl

/-- For a roster of distinct member ids: its order does not matter to the remote tiles; whatever
one member changes leaves the others' tiles in their order, on either side of the threshold;
in a small call what members do changes nothing in the order; there is a person tile for each
remote member and a screen-share tile for each that shares, each once; and a window gives the
whole order, and the records of the tiles at its ranks and of the ids it names. -/
theorem clients_rank_alike (width : PointerWidth) (roster : List Participant)
    (speaking rankedSpeaking : List String) (rankingThreshold : UInt32)
    (distinct : DistinctIds roster) :
    let remote := (deriveTiles roster speaking rankedSpeaking rankingThreshold).remote
    (∀ roster', roster.Perm roster' →
      (deriveTiles roster' speaking rankedSpeaking rankingThreshold).remote = remote) ∧
    (∀ memberId roster' speaking' rankedSpeaking' rankingThreshold', DistinctIds roster' →
      roster'.filter (·.memberId != memberId) = roster.filter (·.memberId != memberId) →
      AgreeBut memberId speaking' speaking → AgreeBut memberId rankedSpeaking' rankedSpeaking →
      let remote' := (deriveTiles roster' speaking' rankedSpeaking' rankingThreshold').remote
      byActivity remote' rankingThreshold' = byActivity remote rankingThreshold →
      others memberId remote' = others memberId remote) ∧
    (∀ roster' speaking' rankedSpeaking' rankingThreshold', List.Forall₂ SameSeat roster' roster →
      let remote' := (deriveTiles roster' speaking' rankedSpeaking' rankingThreshold').remote
      remote'.length ≤ rankingThreshold'.toNat → remote.length ≤ rankingThreshold.toNat →
      remote'.map (·.id) = remote.map (·.id)) ∧
    ((remote.map (·.id)).Nodup ∧
      ∀ id, id ∈ remote.map (·.id) ↔ ∃ p ∈ roster, p.isLocal = false ∧
        id.memberId = p.memberId ∧
        (id.kind = .person ∨ id.kind = .screenShare ∧ (stream p .screenShare).isSome = true)) ∧
    ∀ w, remote.length ≤ width.isizeMax →
      (window width remote w).order = remote.map (fun t => ⟨t.id, t.userId, t.hero⟩) ∧
      (window width remote w).detail =
        (remote.zipIdx.filter fun t => decide (InWindow w t)).map Prod.fst := by
  intro remote
  have tiles : remote.Perm (remoteTiles roster speaking) := perm_remote roster speaking _ _
  refine ⟨fun roster' same => deriveTiles_perm distinct same _ _ _, ?_, ?_, ⟨?_, ?_⟩, ?_⟩
  · intro memberId roster' speaking' rankedSpeaking' rankingThreshold' distinct' same agree
      agreeRanked remote' side
    refine others_keep_order distinct' distinct same agree agreeRanked ?_
    rwa [byActivity_remote, byActivity_remote] at side
  · intro roster' speaking' rankedSpeaking' rankingThreshold' same remote' small' small
    have quiet' : byActivity (remoteTiles roster' speaking') rankingThreshold' = false := by
      rw [← byActivity_remote roster' speaking' rankedSpeaking']
      exact decide_eq_false (not_lt.mpr small')
    have quiet : byActivity (remoteTiles roster speaking) rankingThreshold = false := by
      rw [← byActivity_remote roster speaking rankedSpeaking]
      exact decide_eq_false (not_lt.mpr small)
    rw [ids_small quiet', ids_small quiet, seats_remoteTiles same]
  · exact (tiles.map _).nodup_iff.mpr (nodup_remoteTiles distinct)
  · intro id
    exact (tiles.map _).mem_iff.trans mem_remoteTiles_id
  · intro w fits
    rw [window_eq fits]
    exact ⟨rfl, rfl⟩

/-- A member with a camera that is on. -/
def memberNamed (memberId : String) (joinedAtMs : ℕ) : Participant :=
  { memberId := memberId, userId := "@" ++ memberId, deviceId := none, isLocal := false
    connection := .connected, unableToDecrypt := none, streams := [⟨.camera, false⟩]
    handRaisedAtMs := none, handRaisedPosition := none, joinedAtMs := some joinedAtMs }

/-- Two members, whichever of them the roster names first. -/
theorem clients_rank_alike_pair :
    (deriveTiles [memberNamed "b" 5, memberNamed "a" 5] [] [] 0).remote =
      (deriveTiles [memberNamed "a" 5, memberNamed "b" 5] [] [] 0).remote :=
  (clients_rank_alike .bits64 [memberNamed "a" 5, memberNamed "b" 5] [] [] 0
    (by decide)).1 _ (List.Perm.swap _ _ [])

end MatrixRtc.TileRanks

import MatrixRtc.StepRuns
import MatrixRtc.TileActors
import MatrixRtc.TileRanks

/-!
# What order consumers hold

Whatever moves a tile is followed by a publish in its turn. A publish shows fresh records at
once; the order it shows is the derived one, or the one that consumers hold while a coalesce
window is open, whose end shows the derived one.
-/
namespace MatrixRtc.TileOrders
open MemberEvents MediaTransports MediaPools HostRosters RaisedHands CallTiles SpeakerTimers
open TileActors TileRanks StepRuns KeySorts Tables

/-- What holds of the order whatever the roster is. -/
structure Held (coalesce : ℕ) (o : TileOrder) : Prop where
  nodup : o.lastOrder.Nodup
  pending : ∀ g, o.pendingReorder = some g →
    ∃ timer ∈ o.flushes, timer.generation = g ∧ timer.dueAt ≤ o.openedAt + coalesce

/-- The order that is held, and what is given out, for the tiles that there are. -/
structure Shows (width : PointerWidth) (remote : List CallTile) (w : DetailWindow)
    (o : TileOrder) : Prop where
  derived : ∀ id ∈ o.lastOrder, id ∈ remote.map (·.id)
  tiles : o.tiles = window width (o.lastOrder.filterMap (TileOrder.recordOf remote)) w
  current : o.pendingReorder = none → o.lastOrder = remote.map (·.id)

section
variable {width : PointerWidth} {coalesce now : ℕ} {w : DetailWindow} {o : TileOrder}
variable {remote : List CallTile}

theorem recordOf_isSome {id : TileId} :
    (TileOrder.recordOf remote id).isSome = true ↔ id ∈ remote.map (·.id) := by
  simp [TileOrder.recordOf, List.find?_isSome]

theorem recordOf_id {id : TileId} {t : CallTile}
    (found : TileOrder.recordOf remote id = some t) : t.id = id := by
  simpa using List.find?_some found

theorem recordOf_mem {id : TileId} {t : CallTile}
    (found : TileOrder.recordOf remote id = some t) : t ∈ remote :=
  List.mem_reverse.mp (List.mem_of_find?_eq_some found)

theorem recordOf_of_mem (distinct : (remote.map (·.id)).Nodup) {t : CallTile} (h : t ∈ remote) :
    TileOrder.recordOf remote t.id = some t := by
  have there : (TileOrder.recordOf remote t.id).isSome = true :=
    recordOf_isSome.mpr (List.mem_map_of_mem h)
  obtain ⟨u, found⟩ := Option.isSome_iff_exists.mp there
  have one : u = t := List.inj_on_of_nodup_map distinct (recordOf_mem found) h (recordOf_id found)
  rw [found, one]

theorem filterMap_recordOf (distinct : (remote.map (·.id)).Nodup) :
    (remote.map (·.id)).filterMap (TileOrder.recordOf remote) = remote := by
  rw [List.filterMap_map]
  have each : ∀ t ∈ remote, (TileOrder.recordOf remote ∘ (·.id)) t = some t :=
    fun t h => recordOf_of_mem distinct h
  rw [List.filterMap_congr each, List.filterMap_some]

theorem map_id_filterMap (ids : List TileId) :
    (ids.filterMap (TileOrder.recordOf remote)).map (·.id) =
      ids.filter fun id => (TileOrder.recordOf remote id).isSome := by
  induction ids with
  | nil => rfl
  | cons id rest ih =>
      rw [List.filterMap_cons, List.filter_cons]
      cases found : TileOrder.recordOf remote id with
      | none => simpa using ih
      | some t => simpa [recordOf_id found] using ih

theorem window_order (ranked : List CallTile) :
    (window width ranked w).order = ranked.map fun t => ⟨t.id, t.userId, t.hero⟩ := by
  rw [window, foldl_windowTile, List.nil_append]
  have first : (fun t : CallTile × ℕ => (⟨t.1.id, t.1.userId, t.1.hero⟩ : TileRef)) =
      (fun t : CallTile => (⟨t.id, t.userId, t.hero⟩ : TileRef)) ∘ Prod.fst := rfl
  rw [first, ← List.map_map, List.zipIdx_map_fst]

theorem Shows.order (shows_ : Shows width remote w o) :
    o.tiles.order.map (·.id) = o.lastOrder := by
  rw [shows_.tiles, window_order, List.map_map]
  refine (map_id_filterMap o.lastOrder).trans (List.filter_eq_self.mpr fun id h => ?_)
  exact recordOf_isSome.mpr (shows_.derived id h)

theorem held_openWindow (held : Held coalesce o) : Held coalesce (o.openWindow coalesce now) := by
  unfold TileOrder.openWindow
  split
  · exact held
  · refine ⟨held.nodup, fun g h => ?_⟩
    cases h
    exact ⟨_, List.mem_append_right _ (List.mem_singleton_self _), rfl, le_rfl⟩

theorem openWindow_pending (coalesce now : ℕ) :
    (o.openWindow coalesce now).pendingReorder ≠ none := by
  unfold TileOrder.openWindow
  split
  · simp_all
  · simp

theorem held_publish {tiles : Tiles} (held : Held coalesce o)
    (distinct : (tiles.remote.map (·.id)).Nodup) (localState : Option LocalState) :
    Held coalesce (o.publish width coalesce now w tiles localState) := by
  have told : Held coalesce { o with localState := localState } := ⟨held.nodup, held.pending⟩
  unfold TileOrder.publish
  extract_lets b order
  split_ifs
  · exact ⟨held.nodup, held.pending⟩
  · exact ⟨distinct, held.pending⟩
  · have opened : Held coalesce (TileOrder.openWindow _ coalesce now) := held_openWindow told
    exact ⟨opened.nodup.filter _, opened.pending⟩

/-- A publish shows what there is. -/
theorem shows_publish {tiles : Tiles} (distinct : (tiles.remote.map (·.id)).Nodup)
    (localState : Option LocalState) :
    Shows width tiles.remote w (o.publish width coalesce now w tiles localState) := by
  unfold TileOrder.publish
  extract_lets b order
  split_ifs with same empty
  · have last : o.lastOrder = tiles.remote.map (·.id) := same.symm
    refine ⟨fun id h => ?_, ?_, fun _ => last⟩
    · rwa [← last]
    · change window width tiles.remote w =
        window width (o.lastOrder.filterMap (TileOrder.recordOf tiles.remote)) w
      rw [last, filterMap_recordOf distinct]
  · refine ⟨fun id h => h, ?_, fun _ => rfl⟩
    change window width tiles.remote w =
      window width (order.filterMap (TileOrder.recordOf tiles.remote)) w
    rw [filterMap_recordOf distinct]
  · refine ⟨fun id h => ?_, rfl, fun none => absurd none (openWindow_pending coalesce now)⟩
    exact recordOf_isSome.mp (List.mem_filter.mp h).2

theorem held_publishReordered {tiles : Tiles} (held : Held coalesce o)
    (distinct : (tiles.remote.map (·.id)).Nodup) (localState : Option LocalState) :
    Held coalesce (o.publishReordered width w tiles localState) := ⟨distinct, held.pending⟩

theorem shows_publishReordered {tiles : Tiles} (distinct : (tiles.remote.map (·.id)).Nodup)
    (localState : Option LocalState) :
    Shows width tiles.remote w (o.publishReordered width w tiles localState) := by
  refine ⟨fun id h => h, ?_, fun _ => rfl⟩
  change window width tiles.remote w =
    window width ((tiles.remote.map (·.id)).filterMap (TileOrder.recordOf tiles.remote)) w
  rw [filterMap_recordOf distinct]

end

/-- What every part of a turn keeps. -/
structure Base (a : TileActor) : Prop where
  distinct : DistinctIds a.roster
  held : Held a.stability.coalesce a.order

/-- What is shown is what there is. -/
structure Shown (a : TileActor) : Prop where
  shows_ : Shows a.width a.derived.remote a.window a.order
  localState : a.order.localState = a.localState

/-- A part of a turn, which leaves what is shown right, or shows it anew. -/
structure Keeps (a b : TileActor) : Prop where
  base : Base a → Base b
  shown : Base a → Shown a → Shown b

section
variable {a b c : TileActor} {now : ℕ}

theorem Keeps.refl (a : TileActor) : Keeps a a := ⟨id, fun _ => id⟩

theorem Keeps.trans (first : Keeps a b) (second : Keeps b c) : Keeps a c :=
  ⟨fun base => second.base (first.base base),
    fun base shown => second.shown (first.base base) (first.shown base shown)⟩

theorem derived_nodup (distinct : DistinctIds a.roster) :
    (a.derived.remote.map (·.id)).Nodup :=
  ((perm_remote _ _ _ _).map _).nodup_iff.mpr (nodup_remoteTiles distinct)

theorem base_publishTiles (base : Base a) : Base (a.publishTiles now) :=
  ⟨base.distinct, held_publish base.held (derived_nodup base.distinct) _⟩

theorem shown_publishTiles (base : Base a) : Shown (a.publishTiles now) := by
  refine ⟨shows_publish (derived_nodup base.distinct) _, ?_⟩
  change (a.order.publish _ _ _ _ _ _).localState = a.localState
  unfold TileOrder.publish
  extract_lets o order
  split_ifs
  · rfl
  · rfl
  · change (o.openWindow _ _).localState = _
    unfold TileOrder.openWindow
    split <;> rfl

theorem base_publishRoster (base : Base a) : Base (a.publishRoster now) :=
  base_publishTiles (a := { a with participants := a.roster }) ⟨base.distinct, base.held⟩

theorem shown_publishRoster (base : Base a) : Shown (a.publishRoster now) :=
  shown_publishTiles (a := { a with participants := a.roster }) ⟨base.distinct, base.held⟩

theorem keeps_then_publishRoster (base : Base a → Base b) : Keeps a (b.publishRoster now) :=
  ⟨fun h => base_publishRoster (base h), fun h _ => shown_publishRoster (base h)⟩

theorem keeps_then_publishTiles (base : Base a → Base b) : Keeps a (b.publishTiles now) :=
  ⟨fun h => base_publishTiles (base h), fun h _ => shown_publishTiles (base h)⟩

theorem distinct_of_ids {roster roster' : List Participant}
    (same : roster'.map (·.memberId) = roster.map (·.memberId)) (distinct : DistinctIds roster) :
    DistinctIds roster' := by
  rwa [DistinctIds, same]

theorem distinct_map {roster : List Participant} {f : Participant → Participant}
    (same : ∀ p, (f p).memberId = p.memberId) (distinct : DistinctIds roster) :
    DistinctIds (roster.map f) := by
  refine distinct_of_ids ?_ distinct
  rw [List.map_map]
  exact List.map_congr_left fun p _ => same p

theorem base_setStreams (memberId : String) (streams : List StreamState) (base : Base a) :
    Base (a.setStreams memberId streams) :=
  ⟨distinct_map (fun p => by split_ifs <;> rfl) base.distinct, base.held⟩

theorem keeps_startStream (memberId : String) (kind : MediaStreamKind) (muted : Bool) :
    Keeps a (a.startStream memberId kind muted now) := by
  unfold TileActor.startStream
  cases a.participant memberId with
  | none => exact .refl a
  | some p =>
      dsimp only
      split_ifs
      · exact .refl a
      · exact keeps_then_publishRoster (base_setStreams memberId _)

theorem keeps_removeStream (memberId : String) (kind : MediaStreamKind) :
    Keeps a (a.removeStream memberId kind now) := by
  unfold TileActor.removeStream
  cases a.participant memberId with
  | none => exact .refl a
  | some p =>
      dsimp only
      split_ifs
      · exact keeps_then_publishRoster (base_setStreams memberId _)
      · exact .refl a

theorem keeps_setMemberMuted (memberId : String) (kind : MediaStreamKind) (muted : Bool) :
    Keeps a (a.setMemberMuted memberId kind muted now) := by
  unfold TileActor.setMemberMuted
  cases a.participant memberId with
  | none => exact .refl a
  | some p =>
      dsimp only
      cases p.streams.find? (·.kind == kind) with
      | none => exact .refl a
      | some stream =>
          dsimp only
          split_ifs
          · exact .refl a
          · exact keeps_then_publishRoster (base_setStreams memberId _)

/-- A report that changes no raw state leaves the speakers as they were. -/
theorem applyRawSpeakers_same {s : Speech} {config : StabilityConfig} {raw : List String}
    (same : s.rawChanged raw = false) : (s.applyRawSpeakers config raw now).1 = s := by
  have each : ∀ m ∈ s.heardOf raw, CallEngines.Actor.hearSpeaker raw s.speakers m = s.speakers := by
    intro m h
    have unchanged := List.any_eq_false.mp same m h
    rw [bne_iff_ne, ne_eq, not_not, Speech.rawOf_eq] at unchanged
    exact if_pos unchanged
  have fold : (s.heardOf raw).foldl (CallEngines.Actor.hearSpeaker raw) s.speakers =
      s.speakers := by
    generalize s.heardOf raw = ids at each
    induction ids with
    | nil => rfl
    | cons m rest ih =>
        rw [List.foldl_cons, each m List.mem_cons_self]
        exact ih fun m h => each m (List.mem_cons_of_mem _ h)
  exact congrArg (Speech.mk s.speaking) fold

theorem keeps_applyRawSpeakers (raw : List String) : Keeps a (a.applyRawSpeakers raw now) := by
  unfold TileActor.applyRawSpeakers
  extract_lets heard b
  split_ifs with changed
  · exact keeps_then_publishTiles fun base => ⟨base.distinct, base.held⟩
  · have same : heard.1 = a.speech := applyRawSpeakers_same (Bool.not_eq_true _ ▸ changed)
    have there : b = { a with speakerTimers := a.speakerTimers ++ heard.2 } := by
      rw [← same]
    rw [there]
    exact ⟨fun base => ⟨base.distinct, base.held⟩, fun _ shown => ⟨shown.shows_, shown.localState⟩⟩

theorem keeps_applyPoolEvent (event : PoolEvent) : Keeps a (a.applyPoolEvent now event) := by
  cases event with
  | streamAdded memberId kind => exact keeps_startStream memberId kind false
  | streamRemoved memberId kind => exact keeps_removeStream memberId kind
  | streamMuted memberId kind muted => exact keeps_setMemberMuted memberId kind muted
  | activeSpeakers speakers => exact keeps_applyRawSpeakers _
  | encryptionStateChanged memberId state =>
      exact ⟨fun base => ⟨base.distinct, base.held⟩,
        fun _ shown => ⟨shown.shows_, shown.localState⟩⟩
  | sentInClear memberId =>
      exact ⟨fun base => ⟨base.distinct, base.held⟩,
        fun _ shown => ⟨shown.shows_, shown.localState⟩⟩
  | keyImported _ _ _ | unknownParticipant _ | ownConnectionLost _ _ | connectionState _ _
  | degraded _ | ownFocusMoved _ _ => exact .refl a

theorem keeps_applyPoolEvents (events : List PoolEvent) :
    Keeps a (a.applyPoolEvents now events) := by
  unfold TileActor.applyPoolEvents
  induction events generalizing a with
  | nil => exact .refl a
  | cons event rest ih => exact (keeps_applyPoolEvent event).trans ih

theorem base_refreshHandPositions (base : Base a) : Base a.refreshHandPositions :=
  ⟨distinct_map (fun _ => rfl) base.distinct, base.held⟩

theorem keeps_applyRaisedHands (hands : List RaisedHand) :
    Keeps a (a.applyRaisedHands hands now) := by
  unfold TileActor.applyRaisedHands
  extract_lets b roster
  split_ifs
  · exact ⟨fun base => ⟨base.distinct, base.held⟩,
      fun _ shown => ⟨shown.shows_, shown.localState⟩⟩
  · refine keeps_then_publishRoster fun base => base_refreshHandPositions ⟨?_, base.held⟩
    exact distinct_map (fun _ => rfl) base.distinct

theorem base_removeDeparted (snapshot : List JoinedMembership) (base : Base a) :
    Base (a.removeDeparted snapshot) := by
  unfold TileActor.removeDeparted
  extract_lets departed
  generalize departed = gone
  induction gone generalizing a with
  | nil => exact base
  | cons p rest ih =>
      refine ih ⟨?_, base.held⟩
      exact List.Nodup.sublist (List.filter_sublist.map _) base.distinct

theorem base_addArrived (snapshot : List JoinedMembership) (view : PoolView) (base : Base a) :
    Base (a.addArrived snapshot view) := by
  unfold TileActor.addArrived
  induction snapshot generalizing a with
  | nil => exact base
  | cons member rest ih =>
      refine ih ?_
      dsimp only
      split_ifs with there
      · exact base
      · refine ⟨?_, base.held⟩
        have fresh : member.memberId ∉ a.roster.map (·.memberId) := by
          simpa using there
        change ((a.roster ++ [_]).map Participant.memberId).Nodup
        rw [List.map_append]
        refine List.Nodup.append base.distinct (List.nodup_singleton _) ?_
        intro id here new
        have same : id = member.memberId := List.mem_singleton.mp new
        exact fresh (same ▸ here)

theorem base_applySnapshot (snapshot : List JoinedMembership) (view : PoolView)
    (events : List PoolEvent) (base : Base a) :
    Base ((((a.removeDeparted snapshot).addArrived snapshot view).applyPoolEvents view.now
      events).refreshHandPositions) :=
  base_refreshHandPositions ((keeps_applyPoolEvents events).base
    (base_addArrived snapshot view (base_removeDeparted snapshot base)))

theorem keeps_applySnapshot (snapshot : List JoinedMembership) (view : PoolView)
    (events : List PoolEvent) : Keeps a (a.applySnapshot snapshot view events) :=
  keeps_then_publishRoster (base_applySnapshot snapshot view events)

theorem shown_applySnapshot (snapshot : List JoinedMembership) (view : PoolView)
    (events : List PoolEvent) (base : Base a) : Shown (a.applySnapshot snapshot view events) :=
  shown_publishRoster (base_applySnapshot snapshot view events base)

theorem synced_memberId (view : PoolView) (p : Participant) :
    (a.synced view p).memberId = p.memberId := by
  unfold TileActor.synced
  split_ifs <;> rfl

theorem keeps_syncMediaState (view : PoolView) : Keeps a (a.syncMediaState view) := by
  unfold TileActor.syncMediaState
  extract_lets roster
  split_ifs
  · exact .refl a
  · refine keeps_then_publishRoster fun base => ⟨?_, base.held⟩
    exact distinct_map (synced_memberId view) base.distinct

theorem keeps_localTracks (tracks : Table MediaStreamKind CallEngines.LocalPublication) :
    Keeps a { a with localTracks := tracks } :=
  ⟨fun base => ⟨base.distinct, base.held⟩, fun _ shown => ⟨shown.shows_, shown.localState⟩⟩

theorem keeps_localPublished (kind : MediaStreamKind) (muted : Bool) (track : ℕ) :
    Keeps a (a.localPublished kind muted track now) := by
  exact (keeps_localTracks _).trans (keeps_startStream a.ownMemberId kind _)

theorem keeps_localUnpublished (kind : MediaStreamKind) (track : ℕ) :
    Keeps a (a.localUnpublished kind track now) := by
  unfold TileActor.localUnpublished
  split_ifs
  · exact (keeps_localTracks _).trans (keeps_removeStream a.ownMemberId kind)
  · exact .refl a

theorem keeps_setLocalMuted (kind : MediaStreamKind) (muted told taken : Bool) :
    Keeps a (a.setLocalMuted kind muted told taken now) := by
  unfold TileActor.setLocalMuted
  cases a.localTracks.lookup kind with
  | none => exact .refl a
  | some publication =>
      dsimp only
      split_ifs
      · exact (keeps_localTracks _).trans (keeps_setMemberMuted a.ownMemberId kind muted)
      · exact .refl a

/-- A timer that moves nobody leaves the ranked speakers as they were. -/
theorem speakerTimer_same {s : Speech} {memberId : String} {generation : ℕ}
    (same : (s.speakerTimer memberId generation).speaking.contains memberId =
      s.speaking.contains memberId) : s.speakerTimer memberId generation = s := by
  unfold Speech.speakerTimer at same ⊢
  cases lookup : s.speakers.lookup memberId with
  | none => rfl
  | some state =>
      rw [lookup] at same
      dsimp only at same ⊢
      split_ifs at same ⊢ with current raw
      · have there : memberId ∈ s.speaking := by simpa using same.symm
        rw [List.insert_of_mem there]
      · have gone : memberId ∉ s.speaking := by simpa using same.symm
        rw [List.filter_eq_self.mpr fun m h => by
          simpa using fun e : m = memberId => gone (e ▸ h)]
      · rfl

theorem keeps_speakerTimer (timer : SpeakerTimer) : Keeps a (a.speakerTimer timer now) := by
  unfold TileActor.speakerTimer
  extract_lets heard b changed
  split_ifs with moved
  · exact keeps_then_publishTiles fun base => ⟨base.distinct, base.held⟩
  · have same : heard = a.speech := by
      refine speakerTimer_same ?_
      simpa [changed] using moved
    have there : b = { a with speakerTimers := a.speakerTimers.erase timer } := by
      rw [← same]
    rw [there]
    exact ⟨fun base => ⟨base.distinct, base.held⟩, fun _ shown => ⟨shown.shows_, shown.localState⟩⟩

theorem held_erase {coalesce : ℕ} {o : TileOrder} {timer : FlushTimer} (held : Held coalesce o)
    (other : o.pendingReorder ≠ some timer.generation) :
    Held coalesce { o with flushes := o.flushes.erase timer } := by
  refine ⟨held.nodup, fun g h => ?_⟩
  obtain ⟨own, there, generation, due⟩ := held.pending g h
  refine ⟨own, (List.mem_erase_of_ne fun same => other ?_).mpr there, generation, due⟩
  rw [h, ← generation, same]

theorem base_closed {o : TileOrder} (timer : FlushTimer) (base : Base a)
    (same : o = { a.order with
      flushes := a.order.flushes.erase timer, pendingReorder := none }) :
    Base { a with order := o } := by
  subst same
  exact ⟨base.distinct, base.held.nodup, fun g h => nomatch h⟩

theorem base_publishTilesReordered (base : Base a) : Base a.publishTilesReordered :=
  ⟨base.distinct, held_publishReordered base.held (derived_nodup base.distinct) _⟩

theorem shown_publishTilesReordered (base : Base a) : Shown a.publishTilesReordered :=
  ⟨shows_publishReordered (derived_nodup base.distinct) _, rfl⟩

theorem keeps_flushReorder (timer : FlushTimer) : Keeps a (a.flushReorder timer) := by
  by_cases open_ : a.order.pendingReorder = some timer.generation
  · rw [TileActor.flushReorder, if_pos open_]
    exact ⟨fun base => base_publishTilesReordered (base_closed timer base rfl),
      fun base _ => shown_publishTilesReordered (base_closed timer base rfl)⟩
  · rw [TileActor.flushReorder, if_neg open_]
    exact ⟨fun base => ⟨base.distinct, held_erase base.held open_⟩,
      fun _ shown => ⟨⟨shown.shows_.derived, shown.shows_.tiles, shown.shows_.current⟩,
        shown.localState⟩⟩

theorem keeps_receive (turn : TileTurn) (view : PoolView) : Keeps a (a.receive turn view) := by
  cases turn with
  | pool events => exact keeps_applyPoolEvents events
  | memberships snapshot events => exact keeps_applySnapshot snapshot view events
  | raisedHands hands => exact keeps_applyRaisedHands hands
  | localPublished kind muted track => exact keeps_localPublished kind muted track
  | localUnpublished kind track => exact keeps_localUnpublished kind track
  | setLocalMuted kind muted told taken => exact keeps_setLocalMuted kind muted told taken
  | speakerTimer timer => exact keeps_speakerTimer timer
  | flushReorder timer => exact keeps_flushReorder timer
  | setDetailWindow window =>
      exact keeps_then_publishTiles fun base => ⟨base.distinct, base.held⟩
  | setRankingThreshold rankingThreshold =>
      exact keeps_then_publishTiles fun base => ⟨base.distinct, base.held⟩
  | other => exact .refl a

theorem keeps_turn (turn : TileTurn) (view : PoolView) : Keeps a (a.turn turn view) :=
  (keeps_receive turn view).trans (keeps_syncMediaState view)

/-- A tile without what the end of a turn brings into line. -/
def plain (t : CallTile) : CallTile := { t with connection := .connected, unableToDecrypt := none }

theorem plain_tilesOf {speaking : List String} {p q : Participant}
    (isLocal : q.isLocal = p.isLocal) (streams : q.streams = p.streams)
    (tiles : ∀ kind, plain (tile q kind speaking) = plain (tile p kind speaking)) :
    (tilesOf speaking q).map plain = (tilesOf speaking p).map plain := by
  have sharing : (stream q .screenShare).isSome = (stream p .screenShare).isSome := by
    rw [stream, stream, streams]
  unfold tilesOf
  rw [isLocal, sharing]
  split_ifs <;> simp [tiles]

theorem plain_tilesOf_synced (view : PoolView) (speaking : List String) (p : Participant) :
    (tilesOf speaking (a.synced view p)).map plain = (tilesOf speaking p).map plain := by
  unfold TileActor.synced
  split_ifs <;> exact plain_tilesOf rfl rfl fun _ => rfl

theorem plain_remoteTiles_synced (view : PoolView) (speaking : List String)
    (roster : List Participant) :
    (remoteTiles (roster.map (a.synced view)) speaking).map plain =
      (remoteTiles roster speaking).map plain := by
  induction roster with
  | nil => rfl
  | cons p rest ih =>
      unfold remoteTiles at ih ⊢
      rw [List.map_cons, List.flatMap_cons, List.flatMap_cons, List.map_append, List.map_append, ih,
        plain_tilesOf_synced]

theorem derived_ids (roster : List Participant) (speaking rankedSpeaking : List String)
    (rankingThreshold : UInt32) :
    (deriveTiles roster speaking rankedSpeaking rankingThreshold).remote.map (·.id) =
      (sortByKey
        (keyOf (byActivity (remoteTiles roster speaking) rankingThreshold) rankedSpeaking)
        ((remoteTiles roster speaking).map plain)).map (·.id) := by
  rw [deriveTiles_remote, ← map_sortByKey, List.map_map]
  rfl

theorem ids_derived {roster roster' : List Participant} {speaking rankedSpeaking : List String}
    {rankingThreshold : UInt32}
    (same : (remoteTiles roster' speaking).map plain = (remoteTiles roster speaking).map plain) :
    (deriveTiles roster' speaking rankedSpeaking rankingThreshold).remote.map (·.id) =
      (deriveTiles roster speaking rankedSpeaking rankingThreshold).remote.map (·.id) := by
  have active : byActivity (remoteTiles roster' speaking) rankingThreshold =
      byActivity (remoteTiles roster speaking) rankingThreshold := by
    have lengths := congrArg List.length same
    rw [List.length_map, List.length_map] at lengths
    rw [byActivity, byActivity, lengths]
  rw [derived_ids, derived_ids, active, same]

/-- The turn in which the message of the open window comes leaves no window open. -/
theorem closed_of_flush {timer : FlushTimer} (view : PoolView)
    (open_ : a.order.pendingReorder = some timer.generation) :
    (a.turn (.flushReorder timer) view).order.pendingReorder = none := by
  have received : a.receive (.flushReorder timer) view = TileActor.publishTilesReordered
      { a with order := { a.order with
        flushes := a.order.flushes.erase timer, pendingReorder := none } } := if_pos open_
  unfold TileActor.turn
  rw [received]
  generalize at_ : TileActor.publishTilesReordered _ = b
  have closed : b.order.pendingReorder = none := by
    rw [← at_]
    rfl
  have current : b.order.lastOrder = b.derived.remote.map (·.id) := by
    rw [← at_]
    rfl
  unfold TileActor.syncMediaState
  extract_lets roster
  split_ifs
  · exact closed
  · have same : ({ b with roster := roster } : TileActor).derived.remote.map (·.id) =
        b.order.lastOrder :=
      (ids_derived (plain_remoteTiles_synced view _ b.roster)).trans current.symm
    change (TileOrder.publish _ _ _ _ _ _ _).pendingReorder = none
    unfold TileOrder.publish
    extract_lets o order
    rw [if_pos (show order = o.lastOrder from same)]
    exact closed

instance (a : TileActor) (now : ℕ) : (turn : TileTurn) → Decidable (a.Possible now turn)
  | .speakerTimer timer => inferInstanceAs (Decidable (timer ∈ a.speakerTimers ∧ timer.dueAt ≤ now))
  | .flushReorder timer => inferInstanceAs (Decidable (timer ∈ a.order.flushes ∧ timer.dueAt ≤ now))
  | .pool _ | .memberships _ _ | .raisedHands _ | .localPublished _ _ _ | .localUnpublished _ _
  | .setLocalMuted _ _ _ _ | .setDetailWindow _ | .setRankingThreshold _ | .other =>
      isTrue trivial

/-- A turn at a time when it can come. -/
def step (a : TileActor) (x : TileTurn × PoolView) : Option TileActor :=
  if a.Possible x.2.now x.1 then some (a.turn x.1 x.2) else none

theorem step_eq_some {x : TileTurn × PoolView} (turn : step a x = some b) :
    a.turn x.1 x.2 = b := by
  unfold step at turn
  split_ifs at turn
  exact Option.some.inj turn

theorem base_new (width : PointerWidth) (stability : StabilityConfig) (ownMemberId : String) :
    Base (.new width stability ownMemberId) :=
  ⟨List.nodup_nil, List.nodup_nil, fun _ h => nomatch h⟩

theorem good_start (width : PointerWidth) (stability : StabilityConfig) (ownMemberId : String)
    (found : List PoolEvent) (snapshot : List JoinedMembership) (events : List PoolEvent)
    (hands : Option (List RaisedHand)) (view : PoolView) :
    let a := TileActor.start width stability ownMemberId found snapshot events hands view
    Base a ∧ Shown a := by
  intro a
  have found_ : Base ((TileActor.new width stability ownMemberId).applyPoolEvents view.now found) :=
    (keeps_applyPoolEvents found).base (base_new width stability ownMemberId)
  have base := (keeps_applySnapshot snapshot view events).base found_
  have shown := shown_applySnapshot snapshot view events found_
  have last : Keeps (((TileActor.new width stability ownMemberId).applyPoolEvents view.now
      found).applySnapshot snapshot view events) a := by
    cases hands with
    | none => exact keeps_syncMediaState view
    | some hands => exact (keeps_applyRaisedHands hands).trans (keeps_syncMediaState view)
  exact ⟨last.base base, last.shown base shown⟩

end

/-- The published order and records of a state. -/
structure Published (a : TileActor) : Prop where
  order : a.order.tiles.order.map (·.id) = a.order.lastOrder
  once : a.order.lastOrder.Nodup
  derived : ∀ id ∈ a.order.lastOrder, id ∈ a.derived.remote.map (·.id)
  members : ∀ id ∈ a.order.lastOrder, ∃ p ∈ a.roster, p.memberId = id.memberId
  /-- What is given out is the window on the records as they are, in that order. -/
  records : a.order.tiles = window a.width
    (a.order.lastOrder.filterMap (TileOrder.recordOf a.derived.remote)) a.window
  closed : a.order.pendingReorder = none → a.order.lastOrder = a.derived.remote.map (·.id)
  opened : ∀ g, a.order.pendingReorder = some g → ∃ timer ∈ a.order.flushes,
    timer.generation = g ∧ timer.dueAt ≤ a.order.openedAt + a.stability.coalesce ∧
      ∀ view, (a.turn (.flushReorder timer) view).order.pendingReorder = none
  /-- Once the messages that are due have come, a window that is old enough is closed. -/
  byThen : ∀ now, (∀ timer ∈ a.order.flushes, now < timer.dueAt) →
    a.order.openedAt + a.stability.coalesce ≤ now →
      a.order.lastOrder = a.derived.remote.map (·.id)

theorem published_of_good {a : TileActor} (base : Base a) (shown : Shown a) : Published a where
  order := shown.shows_.order
  once := base.held.nodup
  derived := shown.shows_.derived
  members := by
    intro id h
    have there := (perm_remote _ _ _ _).map CallTile.id |>.mem_iff.mp (shown.shows_.derived id h)
    obtain ⟨p, hp, _, member, _⟩ := mem_remoteTiles_id.mp there
    exact ⟨p, hp, member.symm⟩
  records := shown.shows_.tiles
  closed := shown.shows_.current
  opened := by
    intro g open_
    obtain ⟨timer, there, generation, due⟩ := base.held.pending g open_
    refine ⟨timer, there, generation, due, fun view => closed_of_flush view ?_⟩
    rw [open_, generation]
  byThen := by
    intro now come late
    cases open_ : a.order.pendingReorder with
    | none => exact shown.shows_.current open_
    | some g =>
        obtain ⟨timer, there, _, due⟩ := base.held.pending g open_
        have pending := come timer there
        omega

/-- In every run of the actor, after each turn: the published order is the one it holds, each
tile once and only tiles that the state gives; the records are as the state has them; and the
order is the derived one, or a window is open and the message that ends it is due in time. -/
theorem order_published (width : PointerWidth) (stability : StabilityConfig)
    (ownMemberId : String) (found : List PoolEvent) (snapshot : List JoinedMembership)
    (events : List PoolEvent) (hands : Option (List RaisedHand)) (view : PoolView)
    (turns : List (TileTurn × PoolView)) :
    Always step Published
      (.start width stability ownMemberId found snapshot events hands view) turns := by
  refine always_of_step (P := fun a => Base a ∧ Shown a) ?_
    (fun a good => published_of_good good.1 good.2)
    (good_start width stability ownMemberId found snapshot events hands view) turns
  rintro a x b ⟨base, shown⟩ turn
  obtain rfl := step_eq_some turn
  exact ⟨(keeps_turn x.1 x.2).base base, (keeps_turn x.1 x.2).shown base shown⟩

end MatrixRtc.TileOrders

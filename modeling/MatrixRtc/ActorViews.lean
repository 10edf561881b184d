import MatrixRtc.RosterEvents
import MatrixRtc.TileActors

/-!
# One actor under three aspects

The streams of a roster are followed by the engine that tells of them, by the actor that draws
the tiles and by the roster of a host. Whatever the pool reports, and whoever a snapshot names,
the engine and the tiles agree on the roster, on who speaks and on what cannot be decrypted,
turn by turn; and the host's roster notes of each other member what the engine does.
-/
namespace MatrixRtc.ActorViews
open MemberEvents MediaTransports Tables MediaPools PoolMembers HostRosters
open CallEngines (Actor Answers LocalPublication Turn ActorMessage)
open EngineStreams EngineSnapshots SpeakerTimers TileActors

/-- A participant that is drawn, as the engine has it. -/
def core (p : CallTiles.Participant) : CallEngines.Participant :=
  { memberId := p.memberId
    userId := p.userId
    deviceId := p.deviceId
    isLocal := p.isLocal
    streams := p.streams }

/-- Our publications, without what the transport was last told of their mutes. -/
def publications (tracks : Table MediaStreamKind LocalPublication) :
    Table MediaStreamKind (ℕ × Bool) :=
  mapValues tracks fun _ publication => (publication.track, publication.muted)

/-- The engine and the tiles have one roster, one set of speakers and one state of the media. -/
structure Agree (a : Actor) (b : TileActor) : Prop where
  own : b.ownMemberId = a.ownMemberId
  roster : b.roster.map core = a.roster
  speech : b.speech = speechOf a
  encryption : b.encryptionStates = a.encryptionStates
  failing : b.undecryptableSince = a.undecryptableSince
  clear : b.sentInClear = a.sentInClear
  tracks : publications b.localTracks = publications a.localTracks

section
variable {a a' : Actor} {b b' : TileActor} {now : ℕ}

namespace Agree

/-- What the tiles publish is not the engine's, nor what the engine tells the tiles'. -/
theorem of_same (h : Agree a b) (engine : a' = { a with
      pool := a'.pool, participants := a'.participants, coreLapsed := a'.coreLapsed
      observedLapse := a'.observedLapse, arrived := a'.arrived, ended := a'.ended
      hostConstraints := a'.hostConstraints, installedKeys := a'.installedKeys
      events := a'.events, tasks := a'.tasks, muteCalls := a'.muteCalls })
    (tiles : b' = { b with
      participants := b'.participants, window := b'.window
      rankingThreshold := b'.rankingThreshold, speakerTimers := b'.speakerTimers
      order := b'.order, raisedHands := b'.raisedHands }) : Agree a' b' := by
  rw [engine, tiles]
  exact ⟨h.own, h.roster, h.speech, h.encryption, h.failing, h.clear, h.tracks⟩

theorem publishRoster (h : Agree a b) (now : ℕ) : Agree a (b.publishRoster now) :=
  h.of_same rfl rfl

theorem participant (h : Agree a b) (memberId : String) :
    a.participant memberId = (b.participant memberId).map core := by
  rw [Actor.participant, TileActor.participant, ← h.roster, List.find?_map]
  rfl

theorem setStreams (h : Agree a b) (memberId : String) (streams : List StreamState) :
    Agree (a.setStreams memberId streams) (b.setStreams memberId streams) := by
  refine { h with roster := ?_ }
  rw [Actor.setStreams, TileActor.setStreams, ← h.roster, List.map_map, List.map_map]
  refine List.map_congr_left fun p _ => ?_
  by_cases same : p.memberId = memberId <;> simp [core, same]

/-- `add_stream` is one operation of both. -/
theorem addStream (h : Agree a b) (memberId : String) (kind : MediaStreamKind) (now : ℕ) :
    Agree (a.addStream memberId kind) (b.addStream memberId kind now) := by
  unfold Actor.addStream TileActor.addStream TileActor.startStream
  rw [h.participant]
  cases b.participant memberId with
  | none => exact h
  | some p =>
      change Agree (if Actor.hasStream p.streams kind then _ else _)
        (if Actor.hasStream p.streams kind then _ else _)
      split_ifs
      · exact h
      · exact (h.setStreams memberId _).of_same rfl rfl

/-- `remove_stream` likewise. -/
theorem removeStream (h : Agree a b) (memberId : String) (kind : MediaStreamKind) (now : ℕ) :
    Agree (a.removeStream memberId kind) (b.removeStream memberId kind now) := by
  unfold Actor.removeStream TileActor.removeStream
  rw [h.participant]
  cases b.participant memberId with
  | none => exact h
  | some p =>
      change Agree (if Actor.hasStream p.streams kind then _ else _)
        (if Actor.hasStream p.streams kind then _ else _)
      split_ifs
      · exact (h.setStreams memberId _).of_same rfl rfl
      · exact h

/-- `set_member_muted` likewise. -/
theorem setMemberMuted (h : Agree a b) (memberId : String) (kind : MediaStreamKind)
    (muted : Bool) (now : ℕ) :
    Agree (a.setMemberMuted memberId kind muted) (b.setMemberMuted memberId kind muted now) := by
  unfold Actor.setMemberMuted TileActor.setMemberMuted
  rw [h.participant]
  cases b.participant memberId with
  | none => exact h
  | some p =>
      dsimp only [Option.map_some, core]
      cases p.streams.find? (·.kind == kind) with
      | none => exact h
      | some stream =>
          dsimp only
          split_ifs
          · exact h
          · exact (h.setStreams memberId _).of_same rfl rfl

theorem lookup_tracks (h : Agree a b) (kind : MediaStreamKind) :
    (b.localTracks.lookup kind).map (fun publication => (publication.track, publication.muted)) =
      (a.localTracks.lookup kind).map fun publication =>
        (publication.track, publication.muted) := by
  have same := congrArg (AList.lookup kind) h.tracks
  rwa [publications, publications, lookup_mapValues, lookup_mapValues] at same

/-- `add_local_stream` likewise, where our publications are the same. -/
theorem addLocalStream (h : Agree a b) (memberId : String) (kind : MediaStreamKind) (now : ℕ) :
    Agree (a.addLocalStream memberId kind) (b.addLocalStream memberId kind now) := by
  have muted : (b.localTracks.lookup kind).any (·.muted) =
      (a.localTracks.lookup kind).any (·.muted) := by
    have same := congrArg (Option.any fun published : ℕ × Bool => published.2)
      (h.lookup_tracks kind)
    rwa [Option.any_map, Option.any_map] at same
  unfold Actor.addLocalStream TileActor.addLocalStream TileActor.startStream
  rw [h.participant, muted]
  cases b.participant memberId with
  | none => exact h
  | some p =>
      change Agree (if Actor.hasStream p.streams kind then _ else _)
        (if Actor.hasStream p.streams kind then _ else _)
      split_ifs
      · exact h
      · exact (h.setStreams memberId _).of_same rfl rfl
      · exact (h.setStreams memberId _).of_same rfl rfl

theorem ownPublishedStreams (h : Agree a b) (memberId : String) :
    b.ownPublishedStreams memberId = a.ownPublishedStreams memberId := by
  have streams (tracks : Table MediaStreamKind LocalPublication) :
      (tracks.entries.map fun e => (⟨e.1, e.2.muted⟩ : StreamState)) =
        (publications tracks).entries.map fun e => ⟨e.1, e.2.2⟩ := by
    rw [publications, mapValues, List.map_map]
    rfl
  rw [TileActor.ownPublishedStreams, Actor.ownPublishedStreams, h.own, streams, streams, h.tracks]

theorem encryptionStateChanged (h : Agree a b) (memberId : String) (state : FrameEncryptionState)
    (t : Answers) : Agree (a.encryptionStateChanged memberId state t)
      (b.encryptionStateChanged memberId state t.now) := by
  obtain ⟨pool, tasks, changed⟩ := encryptionStateChanged_changes a memberId state t
  rw [changed]
  exact
    { own := h.own
      roster := h.roster
      speech := h.speech
      encryption := by rw [TileActor.encryptionStateChanged, h.encryption]
      failing := congrArg (Actor.failingSince memberId state t.now) h.failing
      clear := h.clear
      tracks := h.tracks }

theorem applyRawSpeakers (h : Agree a b) (raw : List String) (now : ℕ) :
    Agree (a.applyRawSpeakers raw) (b.applyRawSpeakers raw now) := by
  have heard : Agree (a.applyRawSpeakers raw)
      { b with speech := (b.speech.applyRawSpeakers b.stability raw now).1 } :=
    { own := h.own
      roster := h.roster
      speech := by rw [speechOf_applyRawSpeakers a b.stability raw now, h.speech]
      encryption := h.encryption
      failing := h.failing
      clear := h.clear
      tracks := h.tracks }
  unfold TileActor.applyRawSpeakers
  dsimp only
  split_ifs
  · exact heard.of_same rfl rfl
  · exact heard.of_same rfl rfl

theorem end_ (h : Agree a b) (t : Answers) : Agree (a.end_ t) b := by
  obtain ⟨pool, tasks, ended⟩ := end_changes a t
  rw [ended]
  exact h.of_same rfl rfl

/-- Whatever the pool reports is taken alike. -/
theorem applyPoolEvent (h : Agree a b) (t : Answers) (event : PoolEvent) :
    Agree (a.applyPoolEvent t event) (b.applyPoolEvent t.now event) := by
  cases event with
  | streamAdded memberId kind => exact h.addStream memberId kind t.now
  | streamRemoved memberId kind => exact h.removeStream memberId kind t.now
  | streamMuted memberId kind muted => exact h.setMemberMuted memberId kind muted t.now
  | activeSpeakers speakers =>
      exact (h.applyRawSpeakers (speakers.map (·.memberId)) t.now).of_same rfl rfl
  | encryptionStateChanged memberId state => exact h.encryptionStateChanged memberId state t
  | sentInClear memberId => exact { h with clear := congrArg (List.insert memberId) h.clear }
  | ownConnectionLost => exact h.end_ t
  | keyImported | unknownParticipant | connectionState | degraded | ownFocusMoved =>
      exact h.of_same rfl rfl

theorem applyPoolEvents (h : Agree a b) (t : Answers) (events : List PoolEvent) :
    Agree (a.applyPoolEvents t events) (b.applyPoolEvents t.now events) := by
  unfold Actor.applyPoolEvents TileActor.applyPoolEvents
  induction events generalizing a b with
  | nil => exact h
  | cons event rest ih => exact ih (h.applyPoolEvent t event)

theorem throughPool (h : Agree a b) (call : Call) (t : Answers) :
    Agree (a.throughPool call t) (b.applyPoolEvents t.now (a.callPool call t).2) := by
  have called : Agree (a.callPool call t).1 b := h.of_same rfl rfl
  exact called.applyPoolEvents t _

theorem removeMember (h : Agree a b) (memberId : String) (announce : Option ℕ) :
    Agree (a.removeMember memberId announce) (b.removeMember memberId) where
  own := h.own
  roster := by
    rw [Actor.removeMember, TileActor.removeMember, ← h.roster, List.filter_map]
    rfl
  speech := by rw [speechOf_removeMember, ← h.speech, TileActor.removeMember]
  encryption := congrArg (AList.erase memberId) h.encryption
  failing := congrArg (AList.erase memberId) h.failing
  clear := congrArg (List.filter (· != memberId)) h.clear
  tracks := h.tracks

theorem addMember (h : Agree a b) (member : JoinedMembership) (announce : Option ℕ)
    (reachable : Bool) : Agree (a.addMember member announce) (b.addMember member reachable) := by
  refine { h with roster := ?_ }
  rw [Actor.addMember, TileActor.addMember, List.map_append, h.roster, List.map_singleton, core,
    Actor.participantOf, h.ownPublishedStreams, h.own]

theorem removeDeparted (h : Agree a b) (snapshot : List JoinedMembership)
    (announceFor : String → Option ℕ) :
    Agree (a.removeDeparted snapshot announceFor) (b.removeDeparted snapshot) := by
  unfold Actor.removeDeparted TileActor.removeDeparted
  rw [← h.roster, List.filter_map, List.foldl_map]
  change Agree (List.foldl _ a (b.roster.filter fun p =>
    !(snapshot.map (·.memberId)).contains p.memberId)) _
  induction b.roster.filter fun p => !(snapshot.map (·.memberId)).contains p.memberId
    generalizing a b with
  | nil => exact h
  | cons p rest ih => exact ih (h.removeMember p.memberId (announceFor p.memberId))

theorem addArrived (h : Agree a b) (snapshot : List JoinedMembership)
    (announceFor : String → Option ℕ) (view : PoolView) :
    Agree (a.addArrived snapshot announceFor) (b.addArrived snapshot view) := by
  unfold Actor.addArrived TileActor.addArrived
  induction snapshot generalizing a b with
  | nil => exact h
  | cons member rest ih =>
      have there : a.roster.any (·.memberId == member.memberId) =
          b.roster.any (·.memberId == member.memberId) := by
        rw [← h.roster, List.any_map]
        rfl
      rw [List.foldl_cons, List.foldl_cons, there]
      split_ifs
      · exact ih h
      · exact ih (h.addMember member _ _)

theorem reconcileRoster (h : Agree a b) (snapshot : List JoinedMembership) (view : PoolView) :
    Agree (a.reconcileRoster snapshot) ((b.removeDeparted snapshot).addArrived snapshot view) := by
  unfold Actor.reconcileRoster
  extract_lets withUs arrived count announceFor observed
  have observes : Agree observed b := h.of_same rfl rfl
  exact (observes.removeDeparted snapshot announceFor).addArrived snapshot announceFor view

/-- What changes nothing that the engine has of a participant leaves them in agreement. -/
theorem mapRoster (h : Agree a b) {f : CallTiles.Participant → CallTiles.Participant}
    (same : ∀ p, core (f p) = core p) : Agree a { b with roster := b.roster.map f } := by
  refine { h with roster := ?_ }
  rw [← h.roster, List.map_map]
  exact List.map_congr_left fun p _ => same p

theorem refreshHandPositions (h : Agree a b) : Agree a b.refreshHandPositions :=
  h.mapRoster fun _ => rfl

theorem applySnapshot (h : Agree a b) (snapshot : List JoinedMembership) (t : Answers)
    (view : PoolView) (at_ : view.now = t.now) :
    Agree (a.applySnapshot snapshot t) (b.applySnapshot snapshot view
      ((a.reconcileRoster snapshot).callPool (.applySnapshot snapshot) t).2) := by
  unfold Actor.applySnapshot TileActor.applySnapshot
  rw [at_]
  have reported := (h.reconcileRoster snapshot view).throughPool (.applySnapshot snapshot) t
  exact reported.refreshHandPositions.of_same rfl rfl

theorem syncMediaState (h : Agree a b) (view : PoolView) : Agree a (b.syncMediaState view) := by
  unfold TileActor.syncMediaState
  extract_lets roster
  split_ifs
  · exact h
  · refine (h.mapRoster (f := b.synced view) fun p => ?_).publishRoster view.now
    rw [TileActor.synced]
    split_ifs <;> rfl

theorem applyRaisedHands (h : Agree a b) (hands : List RaisedHands.RaisedHand) (now : ℕ) :
    Agree a (b.applyRaisedHands hands now) := by
  unfold TileActor.applyRaisedHands
  extract_lets heard roster
  have hears : Agree a heard := h.of_same rfl rfl
  split_ifs
  · exact hears
  · refine Agree.publishRoster ?_ now
    exact (hears.mapRoster (f := fun p =>
      { p with handRaisedAtMs := heard.handRaisedAt p.memberId }) fun _ => rfl).refreshHandPositions

theorem flushReorder (h : Agree a b) (timer : FlushTimer) : Agree a (b.flushReorder timer) := by
  unfold TileActor.flushReorder
  extract_lets order
  split_ifs
  · exact h.of_same rfl rfl
  · exact h.of_same rfl rfl

theorem insert_track (h : Agree a b) (kind : MediaStreamKind) (track : ℕ)
    (muted told told' : Bool) :
    Agree { a with localTracks := a.localTracks.insert kind ⟨track, muted, told⟩ }
      { b with localTracks := b.localTracks.insert kind ⟨track, muted, told'⟩ } := by
  refine { h with tracks := ?_ }
  have same := h.tracks
  unfold publications at same ⊢
  rw [mapValues_insert, mapValues_insert, same]

theorem erase_track (h : Agree a b) (kind : MediaStreamKind) :
    Agree { a with localTracks := a.localTracks.erase kind }
      { b with localTracks := b.localTracks.erase kind } := by
  refine { h with tracks := ?_ }
  have same := h.tracks
  unfold publications at same ⊢
  rw [mapValues_erase, mapValues_erase, same]

theorem localPublished (h : Agree a b) (kind : MediaStreamKind) (muted : Bool) (track now : ℕ) :
    Agree (a.localPublished kind muted track) (b.localPublished kind muted track now) := by
  have ours : b.localPublished kind muted track now = _ :=
    congrArg (fun own => TileActor.addLocalStream _ own kind now) h.own
  rw [ours]
  exact (h.insert_track kind track muted muted muted).addLocalStream a.ownMemberId kind now

theorem localUnpublished (h : Agree a b) (kind : MediaStreamKind) (track now : ℕ) :
    Agree (a.localUnpublished kind track) (b.localUnpublished kind track now) := by
  have tracked : (b.localTracks.lookup kind).any (·.track == track) =
      (a.localTracks.lookup kind).any (·.track == track) := by
    have same := congrArg (Option.any fun published : ℕ × Bool => published.1 == track)
      (h.lookup_tracks kind)
    rwa [Option.any_map, Option.any_map] at same
  unfold Actor.localUnpublished TileActor.localUnpublished
  rw [tracked]
  split_ifs
  · have ours := congrArg (fun own => TileActor.removeStream
      { b with localTracks := b.localTracks.erase kind } own kind now) h.own
    exact ours ▸ (h.erase_track kind).removeStream a.ownMemberId kind now
  · exact h

theorem setLocalMuted (h : Agree a b) (kind : MediaStreamKind) (muted : Bool) (t : Answers) :
    Agree (a.setLocalMuted kind muted t)
      (b.setLocalMuted kind muted (muted || a.lapsed) t.mute t.now) := by
  have same := h.lookup_tracks kind
  unfold Actor.setLocalMuted TileActor.setLocalMuted
  cases at_ : a.localTracks.lookup kind with
  | none =>
      rw [at_, Option.map_none, Option.map_eq_none_iff] at same
      rw [same]
      exact h
  | some publication =>
      rw [at_, Option.map_some, Option.map_eq_some_iff] at same
      obtain ⟨publication', at', is_same⟩ := same
      obtain ⟨track, -⟩ := Prod.mk.inj is_same
      rw [at']
      dsimp only
      rw [track]
      split_ifs
      · let told : LocalPublication := ⟨publication.track, muted, muted || a.lapsed⟩
        have tracks := h.insert_track kind publication.track muted told.appliedMuted
          told.appliedMuted
        have ours := congrArg (fun own => TileActor.setMemberMuted
          { b with localTracks := b.localTracks.insert kind told } own kind muted t.now) h.own
        refine ours ▸ Agree.setMemberMuted ?_ a.ownMemberId kind muted t.now
        exact tracks.of_same rfl rfl
      · exact h.of_same rfl rfl

theorem speakerTimer (h : Agree a b) (timer : SpeakerTimer) (now : ℕ) :
    Agree (a.speakerTimer timer.memberId timer.generation) (b.speakerTimer timer now) := by
  have damped : Agree (a.speakerTimer timer.memberId timer.generation)
      { b with speech := b.speech.speakerTimer timer.memberId timer.generation } := by
    have speech := speechOf_speakerTimer a timer.memberId timer.generation
    obtain ⟨speaking, changed⟩ : ∃ speaking, a.speakerTimer timer.memberId timer.generation =
        { a with speaking := speaking } := by
      unfold Actor.speakerTimer
      cases a.speakers.lookup timer.memberId with
      | none => exact ⟨_, rfl⟩
      | some state =>
          dsimp only
          split_ifs <;> exact ⟨_, rfl⟩
    rw [changed, ← h.speech] at speech
    rw [changed]
    exact { h with speech := speech.symm }
  unfold TileActor.speakerTimer
  dsimp only
  split_ifs
  · exact damped.of_same rfl rfl
  · exact damped.of_same rfl rfl

theorem setConstraints (h : Agree a b) (memberId : String) (kind : MediaStreamKind)
    (constraints : MediaConstraints) (t : Answers) :
    Agree (a.setConstraints memberId kind constraints t) b :=
  h.of_same rfl rfl

theorem applyPause (h : Agree a b) (t : Answers) : Agree (a.applyPause t) b := by
  refine { h with tracks := ?_ }
  rw [h.tracks]
  change _ = publications (mapValues a.localTracks (a.paused t))
  unfold publications
  rw [mapValues_mapValues]
  congr 1
  funext kind publication
  unfold Actor.paused
  dsimp only
  split_ifs <;> rfl

end Agree

/-- What the pool reports in a turn. -/
def reported (a : Actor) (t : Answers) : Turn → List PoolEvent
  | .signalling reachable => (a.callPool (.setSignallingReachable reachable) t).2
  | .memberships snapshot =>
      ((a.reconcileRoster snapshot).callPool (.applySnapshot snapshot) t).2
  | .pool message => (a.callPool (.handle message) t).2
  | .message (.connectOwn key connection) => (a.callPool (.connectOwn key connection) t).2
  | .message (.keyImported identity keyIndex) =>
      (a.callPool (.keyImported identity keyIndex) t).2
  | .lapsed _ | .ended | .message _ => []

/-- What a turn of the engine is to the tiles; a timer was due at `dueAt`. -/
def tileTurn (a : Actor) (t : Answers) (dueAt : ℕ) (turn : Turn) : TileTurn :=
  match turn with
  | .memberships snapshot => .memberships snapshot (reported a t turn)
  | .message (.localPublished kind muted track) => .localPublished kind muted track
  | .message (.localUnpublished kind track) => .localUnpublished kind track
  | .message (.setLocalMuted kind muted) => .setLocalMuted kind muted (muted || a.lapsed) t.mute
  | .message (.speakerTimer memberId generation) => .speakerTimer ⟨memberId, generation, dueAt⟩
  | _ => .pool (reported a t turn)

/-- What a turn of the engine is to a host's roster. -/
def hostTurn (a : Actor) (t : Answers) (r : Roster) (turn : Turn) : Roster :=
  let r := match turn with
    | .memberships snapshot => r.applySnapshot snapshot
    | _ => r
  r.applyPoolEvents (reported a t turn)

/-- Turns that move the tiles alone. -/
def ofTiles : TileTurn → Bool
  | .raisedHands _ | .flushReorder _ | .setDetailWindow _ | .setRankingThreshold _ | .other => true
  | .pool _ | .memberships _ _ | .localPublished _ _ _ | .localUnpublished _ _
  | .setLocalMuted _ _ _ _ | .speakerTimer _ => false

namespace Agree

/-- A turn is one of both. -/
theorem turn (h : Agree a b) (turn : Turn) (t : Answers) (dueAt : ℕ) {view : PoolView}
    (at_ : view.now = t.now) :
    Agree (a.turn turn t) (b.turn (tileTurn a t dueAt turn) view) := by
  obtain ⟨now, ownMedia, reachable, memberConnection⟩ := view
  cases at_
  refine (Agree.syncMediaState ?_ _).applyPause t
  cases turn with
  | signalling => exact h.throughPool _ t
  | lapsed => exact h.of_same rfl rfl
  | memberships snapshot => exact h.applySnapshot snapshot t _ rfl
  | ended => exact h.end_ t
  | pool message => exact h.throughPool _ t
  | message message =>
      cases message with
      | adoptConnection => exact h.of_same rfl rfl
      | connectOwn => exact h.throughPool _ t
      | keyImported => exact h.throughPool _ t
      | localPublished kind muted track => exact h.localPublished kind muted track t.now
      | localUnpublished kind track => exact h.localUnpublished kind track t.now
      | setLocalMuted kind muted => exact h.setLocalMuted kind muted t
      | setConstraints memberId kind constraints =>
          exact h.setConstraints memberId kind constraints t
      | speakerTimer memberId generation =>
          exact h.speakerTimer ⟨memberId, generation, dueAt⟩ t.now
      | shutdown => exact h.end_ t

theorem turn_ofTiles (h : Agree a b) {turn : TileTurn} (alone : ofTiles turn) (view : PoolView) :
    Agree a (b.turn turn view) := by
  refine Agree.syncMediaState ?_ view
  cases turn with
  | raisedHands hands => exact h.applyRaisedHands hands view.now
  | flushReorder timer => exact h.flushReorder timer
  | setDetailWindow | setRankingThreshold | other => exact h.of_same rfl rfl
  | pool | memberships | localPublished | localUnpublished | setLocalMuted | speakerTimer =>
      cases alone

end Agree

/-- What a host's roster notes of a member, as the engine has it. -/
def noted (a : Actor) (memberId : String) : Note :=
  ⟨streamsOf a.roster memberId, a.sentInClear.contains memberId,
    a.encryptionStates.lookup memberId⟩

/-- The host's roster notes of the member what the engine does; there is one stream of a kind. -/
structure Notes (a : Actor) (r : Roster) (memberId : String) : Prop where
  note : r.note memberId = noted a memberId
  kinds : ∀ streams ∈ streamsOf a.roster memberId, (streams.map (·.kind)).Nodup

namespace Notes
variable {r : Roster} {memberId : String}

theorem of_same (h : Notes a r memberId) (roster : a'.roster = a.roster)
    (clear : a'.sentInClear = a.sentInClear)
    (encryption : a'.encryptionStates = a.encryptionStates) : Notes a' r memberId := by
  refine ⟨h.note.trans ?_, ?_⟩
  · rw [noted, noted, roster, clear, encryption]
  · rw [roster]
    exact h.kinds

/-- The streams of one member are changed alike. -/
theorem restreamed (h : Notes a r memberId) {other : String}
    {change f : List StreamState → List StreamState} (changed : Restreams a a' other change)
    (alike : ∀ streams : List StreamState, (streams.map (·.kind)).Nodup →
      change streams = f streams ∧ ((f streams).map (·.kind)).Nodup) :
    Notes a' (r.updateStreams other f) memberId := by
  obtain ⟨streams, clear, encryption⟩ := Note.mk.inj h.note
  obtain ⟨clear', encryption'⟩ := noted_updateStreams (r := r) other f
  have same := changed.rest
  have noted_clear : a'.sentInClear = a.sentInClear := by rw [same]
  have noted_encryption : a'.encryptionStates = a.encryptionStates := by rw [same]
  constructor
  · rw [Roster.note, noted, lookup_updateStreams, changed.streams, clear', encryption', streams,
      clear, encryption, noted_clear, noted_encryption]
    congr 1
    split_ifs
    · cases at_ : streamsOf a.roster memberId with
      | none => rfl
      | some before => exact congrArg some (alike before (h.kinds before at_)).1.symm
    · rfl
  · rw [changed.streams]
    split_ifs
    · intro after is_after
      obtain ⟨before, at_, rfl⟩ := Option.map_eq_some_iff.mp is_after
      obtain ⟨is_, kinds⟩ := alike before (h.kinds before at_)
      rw [is_]
      exact kinds
    · exact h.kinds

theorem nodup_added {kind : MediaStreamKind} {streams : List StreamState}
    (kinds : (streams.map (·.kind)).Nodup) : ((added kind false streams).map (·.kind)).Nodup := by
  unfold added
  split_ifs with has
  · exact kinds
  · rw [List.map_append, List.map_singleton]
    refine List.nodup_append'.mpr ⟨kinds, List.nodup_singleton _, ?_⟩
    rw [List.disjoint_singleton]
    rintro there
    obtain ⟨stream, at_, is_kind⟩ := List.mem_map.mp there
    exact has (List.any_eq_true.mpr ⟨stream, at_, beq_iff_eq.mpr is_kind⟩)

/-- Where there is one stream of a kind, whether it is the first of them does not matter. -/
theorem remuted_eq {kind : MediaStreamKind} {muted : Bool} {streams : List StreamState}
    (kinds : (streams.map (·.kind)).Nodup) :
    remuted kind muted streams = withMute kind muted streams := by
  unfold remuted
  cases at_ : streams.find? (·.kind == kind) with
  | none =>
      refine (withMute_of_not_has fun has => ?_).symm
      obtain ⟨stream, there, is_kind⟩ := List.any_eq_true.mp has
      exact (List.find?_eq_none.mp at_) stream there is_kind
  | some stream =>
      dsimp only
      split_ifs with already
      · have is_kind : stream.kind = kind := by simpa using List.find?_some at_
        refine ((List.map_congr_left fun other there => ?_).trans (List.map_id' streams)).symm
        split_ifs with same
        · have one := List.inj_on_of_nodup_map kinds there (List.mem_of_find?_eq_some at_)
            (same.trans is_kind.symm)
          rw [one, ← is_kind, ← already]
        · rfl
      · rfl

theorem nodup_withMute {kind : MediaStreamKind} {muted : Bool} {streams : List StreamState}
    (kinds : (streams.map (·.kind)).Nodup) :
    ((withMute kind muted streams).map (·.kind)).Nodup := by
  have same : (withMute kind muted streams).map (·.kind) = streams.map (·.kind) := by
    rw [withMute, List.map_map]
    refine List.map_congr_left fun stream _ => ?_
    rw [Function.comp_apply]
    split_ifs with is_kind
    · exact is_kind.symm
    · rfl
  rw [same]
  exact kinds

theorem applyPoolEvent (h : Notes a r memberId) (t : Answers) (event : PoolEvent) :
    Notes (a.applyPoolEvent t event) (r.applyEvent event) memberId := by
  cases event with
  | streamAdded other kind =>
      exact h.restreamed (restreams_addStream a other kind) fun _ kinds =>
        ⟨rfl, nodup_added kinds⟩
  | streamRemoved other kind =>
      exact h.restreamed (restreams_removeStream a other kind) fun _ kinds =>
        ⟨rfl, kinds.sublist (List.filter_sublist.map _)⟩
  | streamMuted other kind muted =>
      exact h.restreamed (restreams_setMemberMuted a other kind muted) fun _ kinds =>
        ⟨remuted_eq kinds, nodup_withMute kinds⟩
  | encryptionStateChanged other state =>
      obtain ⟨pool, tasks, changed⟩ := encryptionStateChanged_changes a other state t
      rw [Actor.applyPoolEvent, changed]
      obtain ⟨streams, clear, encryption⟩ := Note.mk.inj h.note
      refine ⟨?_, h.kinds⟩
      rw [Roster.note, noted, Roster.applyEvent, streams, clear]
      congr 1
      by_cases same : memberId = other
      · rw [same, AList.lookup_insert, AList.lookup_insert]
      · rw [AList.lookup_insert_ne same, AList.lookup_insert_ne same, encryption]
  | sentInClear other =>
      obtain ⟨streams, clear, encryption⟩ := Note.mk.inj h.note
      refine ⟨?_, h.kinds⟩
      rw [Roster.note, noted, Roster.applyEvent, streams, encryption]
      congr 1
      rw [Bool.eq_iff_iff, List.contains_iff_mem, List.contains_iff_mem] at clear ⊢
      rw [Actor.applyPoolEvent, List.mem_insert_iff, List.mem_insert_iff, clear]
  | ownConnectionLost =>
      obtain ⟨pool, tasks, ended⟩ := end_changes a t
      rw [Actor.applyPoolEvent, ended]
      exact h.of_same rfl rfl rfl
  | activeSpeakers | keyImported | unknownParticipant | connectionState | degraded
  | ownFocusMoved => exact h.of_same rfl rfl rfl

theorem applyPoolEvents (h : Notes a r memberId) (t : Answers) (events : List PoolEvent) :
    Notes (a.applyPoolEvents t events) (r.applyPoolEvents events) memberId := by
  unfold Actor.applyPoolEvents Roster.applyPoolEvents
  induction events generalizing a r with
  | nil => exact h
  | cons event rest ih => exact ih (h.applyPoolEvent t event)

theorem throughPool (h : Notes a r memberId) (call : Call) (t : Answers) :
    Notes (a.throughPool call t) (r.applyPoolEvents (a.callPool call t).2) memberId := by
  have called : Notes (a.callPool call t).1 r memberId := h.of_same rfl rfl rfl
  exact called.applyPoolEvents t _

theorem mem_iff (h : Notes a r memberId) :
    memberId ∈ r.participants ↔ memberId ∈ idsOf a.roster := by
  rw [mem_of_note, h.note]
  exact streamsOf_isSome

theorem noted_removeMember (a : Actor) (other : String) (announce : Option ℕ) :
    noted (a.removeMember other announce) memberId =
      if memberId = other then .blank else noted a memberId := by
  have streams : streamsOf (a.removeMember other announce).roster memberId = _ :=
    streamsOf_remove a.roster other
  rw [noted, streams]
  split_ifs with same
  · subst same
    simp [Actor.removeMember, Note.blank, AList.lookup_erase]
  · simp [Actor.removeMember, noted, AList.lookup_erase_ne same, same]

theorem noted_removeAll (announceFor : String → Option ℕ) (departed : List CallEngines.Participant)
    (a : Actor) :
    noted (departed.foldl (fun b p => b.removeMember p.memberId (announceFor p.memberId)) a)
        memberId =
      if memberId ∈ idsOf departed then .blank else noted a memberId := by
  induction departed generalizing a with
  | nil => rfl
  | cons p rest ih =>
      rw [List.foldl_cons, ih, noted_removeMember, ← ite_or]
      refine if_congr ?_ rfl rfl
      rw [idsOf, idsOf, List.map_cons, List.mem_cons, or_comm]

/-- Whoever is not in the snapshot is forgotten by both. -/
theorem removeDeparted (h : Notes a r memberId) (snapshot : List JoinedMembership)
    (announceFor : String → Option ℕ) :
    Notes (a.removeDeparted snapshot announceFor)
      ((r.participants.keys.filter fun memberId =>
        memberId ∉ snapshot.map (·.memberId)).foldl Roster.removeMember r) memberId := by
  have gone : (memberId ∈ idsOf (a.roster.filter fun p =>
        !(snapshot.map (·.memberId)).contains p.memberId)) ↔
      memberId ∈ r.participants.keys.filter fun memberId =>
        memberId ∉ snapshot.map (·.memberId) := by
    rw [List.mem_filter, ← AList.mem_keys, h.mem_iff, decide_eq_true_eq, idsOf, idsOf, List.mem_map,
      List.mem_map]
    simp only [List.mem_filter, Bool.not_eq_true', ← Bool.not_eq_true, List.contains_iff_mem]
    constructor
    · rintro ⟨p, ⟨at_, left⟩, rfl⟩
      exact ⟨⟨p, at_, rfl⟩, left⟩
    · rintro ⟨⟨p, at_, rfl⟩, left⟩
      exact ⟨p, ⟨at_, left⟩, rfl⟩
  have after : noted (a.removeDeparted snapshot announceFor) memberId = _ :=
    noted_removeAll announceFor _ a
  refine ⟨?_, fun streams is_ => ?_⟩
  · rw [after, note_removeAll, h.note]
    exact if_congr gone.symm rfl rfl
  · refine h.kinds streams ?_
    have same := congrArg Note.streams after
    split_ifs at same
    · cases same.symm.trans is_
    · exact same.symm.trans is_

theorem streamsOf_addMember (a : Actor) (member : JoinedMembership) (announce : Option ℕ) :
    streamsOf (a.addMember member announce).roster memberId =
      (streamsOf a.roster memberId).or (if member.memberId = memberId then
        some (a.ownPublishedStreams member.memberId) else none) :=
  streamsOf_append a.roster (a.participantOf member)

/-- A member that is named gets a participant where it had none. -/
theorem addMember (h : Notes a r memberId) (remote : memberId ≠ a.ownMemberId)
    (member : JoinedMembership) (announce : Option ℕ) :
    Notes (if a.roster.any (·.memberId == member.memberId) then a
      else a.addMember member announce) (r.addMember member) memberId := by
  have mem := h.mem_iff
  have streams : streamsOf (a.addMember member announce).roster memberId = _ :=
    streamsOf_addMember a member announce
  by_cases same : memberId = member.memberId
  · subst same
    rw [if_pos rfl, ownPublishedStreams_remote remote] at streams
    split_ifs with listed
    · refine ⟨?_, h.kinds⟩
      rw [note_addMember, if_neg fun fresh => fresh.2 (mem.mpr (any_ids.mp listed)), h.note]
    · have there : member.memberId ∉ idsOf a.roster := fun at_ => listed (any_ids.mpr at_)
      rw [streamsOf_eq_none.mpr there, Option.none_or] at streams
      refine ⟨?_, fun given is_ => ?_⟩
      · rw [note_addMember, if_pos ⟨rfl, fun at_ => there (mem.mp at_)⟩, h.note, noted, noted,
          streams]
        rfl
      · cases streams.symm.trans is_
        exact List.nodup_nil
  · rw [if_neg fun is_ => same is_.symm, Option.or_none] at streams
    have left : (r.addMember member).note memberId = r.note memberId := by
      rw [note_addMember, if_neg (not_and_of_not_left _ same)]
    split_ifs
    · exact ⟨left.trans h.note, h.kinds⟩
    · refine ⟨left.trans (h.note.trans ?_), ?_⟩
      · rw [noted, noted, streams]
        rfl
      · rw [streams]
        exact h.kinds

theorem addArrived (h : Notes a r memberId) (remote : memberId ≠ a.ownMemberId)
    (snapshot : List JoinedMembership) (announceFor : String → Option ℕ) :
    Notes (a.addArrived snapshot announceFor) (snapshot.foldl Roster.addMember r) memberId := by
  unfold Actor.addArrived
  induction snapshot generalizing a r with
  | nil => exact h
  | cons member rest ih =>
      refine ih (h.addMember remote member (announceFor member.memberId)) ?_
      dsimp only
      split_ifs <;> exact remote

theorem applySnapshot (h : Notes a r memberId) (remote : memberId ≠ a.ownMemberId)
    (snapshot : List JoinedMembership) (t : Answers) :
    Notes (a.applySnapshot snapshot t) ((r.applySnapshot snapshot).applyPoolEvents
      ((a.reconcileRoster snapshot).callPool (.applySnapshot snapshot) t).2) memberId := by
  have reconciled : Notes (a.reconcileRoster snapshot) (r.applySnapshot snapshot) memberId := by
    unfold Actor.reconcileRoster Roster.applySnapshot
    extract_lets withUs arrived count announceFor observed departed
    have observes : Notes observed r memberId := h.of_same rfl rfl rfl
    refine (observes.removeDeparted snapshot announceFor).addArrived ?_ snapshot announceFor
    have own := (removeDeparted_spec observed (a.arrived && !a.ended) count snapshot).1.ownMemberId
    exact fun is_ => remote (is_.trans own)
  exact (reconciled.throughPool (.applySnapshot snapshot) t).of_same rfl rfl rfl

theorem end_ (h : Notes a r memberId) (t : Answers) : Notes (a.end_ t) r memberId := by
  obtain ⟨pool, tasks, ended⟩ := end_changes a t
  rw [ended]
  exact h.of_same rfl rfl rfl

/-- What changes the streams of our own participant is not about another member. -/
theorem ours (h : Notes a r memberId) (remote : memberId ≠ a.ownMemberId)
    {change : List StreamState → List StreamState}
    (changed : Restreams a a' a.ownMemberId change) : Notes a' r memberId := by
  have streams := changed.streams memberId
  rw [if_neg remote] at streams
  have rest := changed.rest
  refine ⟨h.note.trans ?_, ?_⟩
  · rw [noted, noted, streams, rest]
  · rw [streams]
    exact h.kinds

theorem localPublished (h : Notes a r memberId) (remote : memberId ≠ a.ownMemberId)
    (kind : MediaStreamKind) (muted : Bool) (track : ℕ) :
    Notes (a.localPublished kind muted track) r memberId := by
  have tracked : Notes { a with localTracks := a.localTracks.insert kind ⟨track, muted, muted⟩ } r
      memberId := h.of_same rfl rfl rfl
  exact tracked.ours remote (restreams_addLocalStream _ _ kind)

theorem localUnpublished (h : Notes a r memberId) (remote : memberId ≠ a.ownMemberId)
    (kind : MediaStreamKind) (track : ℕ) :
    Notes (a.localUnpublished kind track) r memberId := by
  have untracked : Notes { a with localTracks := a.localTracks.erase kind } r memberId :=
    h.of_same rfl rfl rfl
  unfold Actor.localUnpublished
  split_ifs
  · exact untracked.ours remote (restreams_removeStream _ _ kind)
  · exact h

theorem setLocalMuted (h : Notes a r memberId) (remote : memberId ≠ a.ownMemberId)
    (kind : MediaStreamKind) (muted : Bool) (t : Answers) :
    Notes (a.setLocalMuted kind muted t) r memberId := by
  unfold Actor.setLocalMuted
  cases a.localTracks.lookup kind with
  | none => exact h
  | some publication =>
      have told (calls : List CallEngines.MuteCall) : Notes { a with
          localTracks := a.localTracks.insert kind
            ⟨publication.track, muted, muted || a.lapsed⟩
          muteCalls := calls } r memberId := h.of_same rfl rfl rfl
      dsimp only
      split_ifs
      · exact (told _).ours remote (restreams_setMemberMuted _ _ kind muted)
      · exact h.of_same rfl rfl rfl

theorem speakerTimer (h : Notes a r memberId) (other : String) (generation : ℕ) :
    Notes (a.speakerTimer other generation) r memberId := by
  unfold Actor.speakerTimer
  cases a.speakers.lookup other with
  | none => exact h
  | some state =>
      dsimp only
      split_ifs <;> exact h.of_same rfl rfl rfl

/-- A turn leaves the host's roster with what the engine has of the member. -/
theorem turn (h : Notes a r memberId) (remote : memberId ≠ a.ownMemberId) (turn : Turn)
    (t : Answers) : Notes (a.turn turn t) (hostTurn a t r turn) memberId := by
  suffices received : Notes (a.receive turn t) (hostTurn a t r turn) memberId from
    received.of_same rfl rfl rfl
  cases turn with
  | signalling => exact h.throughPool _ t
  | lapsed => exact h.of_same rfl rfl rfl
  | memberships snapshot => exact h.applySnapshot remote snapshot t
  | ended => exact h.end_ t
  | pool message => exact h.throughPool _ t
  | message message =>
      cases message with
      | adoptConnection | setConstraints => exact h.of_same rfl rfl rfl
      | connectOwn => exact h.throughPool _ t
      | keyImported => exact h.throughPool _ t
      | localPublished kind muted track => exact h.localPublished remote kind muted track
      | localUnpublished kind track => exact h.localUnpublished remote kind track
      | setLocalMuted kind muted => exact h.setLocalMuted remote kind muted t
      | speakerTimer other generation => exact h.speakerTimer other generation
      | shutdown => exact h.end_ t

end Notes

end

/-- The engine, the tiles and the roster of a host. -/
structure Views where
  engine : Actor
  tiles : TileActor
  host : Roster

inductive ViewTurn where
  | shared (turn : Turn) (dueAt : ℕ)
  | tiles (turn : TileTurn)

/-- A turn of the actor, which happens at once and is asked about one pool. -/
def step (s : Views) (input : ViewTurn × Answers × PoolView) : Option Views :=
  let (turn, t, view) := input
  if view.now = t.now then
    match turn with
    | .shared turn dueAt => some
        { engine := s.engine.turn turn t
          tiles := s.tiles.turn (tileTurn s.engine t dueAt turn) view
          host := hostTurn s.engine t s.host turn }
    | .tiles turn =>
        if ofTiles turn then
          some { s with engine := s.engine.applyPause t, tiles := s.tiles.turn turn view }
        else none
  else none

def start (config : PoolConfig) (width : CallTiles.PointerWidth) (stability : StabilityConfig) :
    Views :=
  { engine := .new config
    tiles := .new width stability config.ownMemberId
    host := .empty }

/-- One actor: the tiles have the engine's roster and media, and the host's roster notes of
every other member what the engine does. -/
structure OneActor (own : String) (s : Views) : Prop where
  inv : RosterEvents.Inv s.engine
  ownMemberId : s.engine.ownMemberId = own
  agree : Agree s.engine s.tiles
  notes : ∀ memberId, memberId ≠ own → Notes s.engine s.host memberId

theorem oneActor_start (config : PoolConfig) (width : CallTiles.PointerWidth)
    (stability : StabilityConfig) :
    OneActor config.ownMemberId (start config width stability) where
  inv := RosterEvents.inv_new config
  ownMemberId := rfl
  agree := ⟨rfl, rfl, rfl, rfl, rfl, rfl, rfl⟩
  notes _ _ := ⟨rfl, fun _ is_ => by cases is_⟩

/-- Along every run the three are views of one actor. -/
theorem views_agree (config : PoolConfig) (width : CallTiles.PointerWidth)
    (stability : StabilityConfig) {inputs : List (ViewTurn × Answers × PoolView)} {s : Views}
    (h : StepRuns.run step (start config width stability) inputs = some s) :
    OneActor config.ownMemberId s := by
  refine StepRuns.run_invariant_of_step (fun s input t inv next => ?_)
    (oneActor_start config width stability) h
  obtain ⟨turn, answers, view⟩ := input
  unfold step at next
  dsimp only at next
  split_ifs at next with at_
  cases turn with
  | shared turn dueAt =>
      cases next
      have turned := RosterEvents.turned_turn inv.inv turn answers
      refine ⟨turned.inv, turned.ownMemberId.trans inv.ownMemberId,
        inv.agree.turn turn answers dueAt at_, fun memberId other => ?_⟩
      exact (inv.notes memberId other).turn (inv.ownMemberId ▸ other) turn answers
  | tiles turn =>
      dsimp only at next
      split_ifs at next with alone
      cases next
      refine ⟨inv.inv.kept (.of_roster (.applyPause s.engine answers) rfl), inv.ownMemberId,
        (inv.agree.turn_ofTiles alone view).applyPause answers, fun memberId other => ?_⟩
      exact (inv.notes memberId other).of_same rfl rfl rfl

end MatrixRtc.ActorViews

import MatrixRtc.EngineSnapshots
import MatrixRtc.LateMembers
import MatrixRtc.PoolStreams
import Mathlib.Data.List.Dedup

/-!
# The events of an engine and its roster

From the snapshot that first holds our membership until the engine ends, whoever folds the
engine's events over the roster of that snapshot has the remote members of the roster that is
published after each turn, with their streams and mutes. The counts that the events carry are
the sizes of the roster, and a stream is shown exactly where the pool has its track.
-/
namespace MatrixRtc.RosterEvents
open MemberEvents MediaTransports Tables MediaPools PoolMoves PoolMembers PoolStreams
open HostRosters CallEngines EngineStreams EngineSnapshots StepRuns

/-- The streams of a remote member of a roster. -/
def remoteStreams (roster : List Participant) (memberId : String) : Option (List StreamState) :=
  ((roster.find? (·.memberId == memberId)).filter (!·.isLocal)).map (·.streams)

/-- An actor, what a host has folded from its events, and the events of its last turn. -/
structure Watched where
  actor : Actor
  view : String → Option (List StreamState)
  news : List CallEvent

def start (config : PoolConfig) : Watched := ⟨.new config, fun _ => none, []⟩

/-- A turn, until the engine ends. Up to the one that we arrive in, the host takes the roster
that it leaves; after it the host folds the events. -/
def step (w : Watched) (input : Turn × Answers) : Option Watched :=
  if w.actor.ended then none
  else
    let actor := w.actor.turn input.1 input.2
    let news := actor.events.drop w.actor.events.length
    some
      { actor := actor
        view := fun memberId =>
          if w.actor.arrived then news.foldl (said memberId) (w.view memberId)
          else remoteStreams actor.participants memberId
        news := news }

/-- The host has what is published, its counts are the size of the roster, and the streams of
remote members are those with a track. -/
structure Right (w : Watched) : Prop where
  view : w.actor.arrived = true → ∀ memberId,
    remoteStreams w.actor.participants memberId = w.view memberId
  counts : ∀ event ∈ w.news, ∀ count ∈ participantCount event,
    count = w.actor.participants.length
  tracks : ∀ memberId, memberId ≠ w.actor.ownMemberId → ∀ kind,
    (∃ streams ∈ remoteStreams w.actor.participants memberId, ∃ stream ∈ streams,
      stream.kind = kind) ↔ (memberId, kind) ∈ w.actor.pool.tracks

section
variable {a b c : Actor} {memberId : String} {kind : MediaStreamKind}
variable {snapshot : List JoinedMembership}

def Shown (a : Actor) (memberId : String) (kind : MediaStreamKind) : Prop :=
  ∃ streams ∈ streamsOf a.roster memberId, ∃ stream ∈ streams, stream.kind = kind

theorem ids_of_entries (h : Tells a b) : idsOf b.roster = idsOf a.roster := by
  have mapped (roster : List Participant) :
      idsOf roster = (roster.map entry).map (·.memberId) := by
    rw [List.map_map]
    rfl
  rw [mapped, mapped a.roster, h.entries]

theorem kind_added {muted : Bool} {streams : List StreamState} {added_ : MediaStreamKind} :
    (∃ stream ∈ added added_ muted streams, stream.kind = kind) ↔
      kind = added_ ∨ ∃ stream ∈ streams, stream.kind = kind := by
  unfold added
  split_ifs with has
  · obtain ⟨stream, at_, is_added⟩ := List.any_eq_true.mp has
    refine (or_iff_right_of_imp fun is_kind => ⟨stream, at_, ?_⟩).symm
    rw [is_kind]
    exact beq_iff_eq.mp is_added
  · simp only [List.mem_append, List.mem_singleton, or_and_right, exists_or, exists_eq_left]
    rw [or_comm, eq_comm]

theorem kind_removed {streams : List StreamState} {removed_ : MediaStreamKind} :
    (∃ stream ∈ removed removed_ streams, stream.kind = kind) ↔
      kind ≠ removed_ ∧ ∃ stream ∈ streams, stream.kind = kind := by
  unfold removed
  simp only [List.mem_filter, bne_iff_ne]
  constructor
  · rintro ⟨stream, ⟨at_, left⟩, rfl⟩
    exact ⟨left, stream, at_, rfl⟩
  · rintro ⟨left, stream, at_, rfl⟩
    exact ⟨stream, ⟨at_, left⟩, rfl⟩

theorem kind_remuted {muted : Bool} {streams : List StreamState} {changed : MediaStreamKind} :
    (∃ stream ∈ remuted changed muted streams, stream.kind = kind) ↔
      ∃ stream ∈ streams, stream.kind = kind := by
  have mapped : (∃ stream ∈ withMute changed muted streams, stream.kind = kind) ↔
      ∃ stream ∈ streams, stream.kind = kind := by
    unfold withMute
    simp only [List.mem_map, exists_exists_and_eq_and]
    refine exists_congr fun stream => and_congr_right fun _ => ?_
    split_ifs with is_kind
    · rw [is_kind]
    · rfl
  unfold remuted
  split
  · rfl
  · split_ifs
    · rfl
    · exact mapped

theorem shown_restreams {other : String} {change : List StreamState → List StreamState}
    (h : Restreams a b other change) :
    Shown b memberId kind ↔
      if memberId = other then
        ∃ streams ∈ streamsOf a.roster memberId, ∃ stream ∈ change streams, stream.kind = kind
      else Shown a memberId kind := by
  unfold Shown
  rw [h.streams]
  split_ifs
  · simp
  · rfl

theorem shown_of_roster (h : b.roster = a.roster) :
    Shown b memberId kind ↔ Shown a memberId kind := by
  rw [Shown, h, Shown]

/-- A participant shows the streams that the host of the pool hears of. -/
theorem shown_applyPoolEvent {streams : List Stream} (there : memberId ∈ idsOf a.roster)
    (same : ∀ kind, Shown a memberId kind ↔ (memberId, kind) ∈ streams) (t : Answers)
    (event : PoolEvent) (kind : MediaStreamKind) :
    Shown (a.applyPoolEvent t event) memberId kind ↔ (memberId, kind) ∈ heard streams [event] := by
  obtain ⟨shown, found⟩ := Option.isSome_iff_exists.mp (streamsOf_isSome.mpr there)
  have shown_iff (kind : MediaStreamKind) :
      (∃ stream ∈ shown, stream.kind = kind) ↔ (memberId, kind) ∈ streams := by
    rw [← same kind]
    simp [Shown, found]
  cases event with
  | streamAdded other new =>
      refine (shown_restreams (restreams_addStream a other new)).trans ?_
      rw [heard, heard, List.mem_cons]
      split_ifs with is_other
      · subst is_other
        simp only [found, Option.mem_def, Option.some.injEq, exists_eq_left', Prod.mk.injEq,
          true_and, kind_added, shown_iff]
      · rw [same kind]
        exact (or_iff_right fun h => is_other (congrArg Prod.fst h)).symm
  | streamRemoved other gone =>
      refine (shown_restreams (restreams_removeStream a other gone)).trans ?_
      rw [heard, heard, List.mem_filter, bne_iff_ne, and_comm]
      split_ifs with is_other
      · subst is_other
        simp only [found, Option.mem_def, Option.some.injEq, exists_eq_left', ne_eq,
          Prod.mk.injEq, true_and, kind_removed, shown_iff]
      · rw [same kind]
        exact (and_iff_right fun h => is_other (congrArg Prod.fst h)).symm
  | streamMuted other changed muted =>
      refine (shown_restreams (restreams_setMemberMuted a other changed muted)).trans ?_
      change _ ↔ (memberId, kind) ∈ streams
      split_ifs with is_other
      · simp only [found, Option.mem_def, Option.some.injEq, exists_eq_left', kind_remuted,
          shown_iff]
      · exact same kind
  | encryptionStateChanged other state =>
      obtain ⟨pool, tasks, changed⟩ := encryptionStateChanged_changes a other state t
      exact (shown_of_roster (congrArg Actor.roster changed)).trans (same kind)
  | ownConnectionLost reason message =>
      obtain ⟨pool, tasks, changed⟩ := end_changes a t
      exact (shown_of_roster (congrArg Actor.roster changed)).trans (same kind)
  | _ => exact same kind

theorem shown_applyPoolEvents {streams : List Stream} (there : memberId ∈ idsOf a.roster)
    (same : ∀ kind, Shown a memberId kind ↔ (memberId, kind) ∈ streams) (t : Answers)
    (events : List PoolEvent) (kind : MediaStreamKind) :
    Shown (a.applyPoolEvents t events) memberId kind ↔
      (memberId, kind) ∈ heard streams events := by
  unfold Actor.applyPoolEvents
  induction events generalizing a streams with
  | nil => exact same kind
  | cons event rest ih =>
      have split_ : heard streams (event :: rest) = heard (heard streams [event]) rest :=
        heard_append streams [event] rest
      rw [split_]
      have ids := ids_of_entries (Kept.applyPoolEvent a t event).toTells
      exact ih (ids ▸ there) (shown_applyPoolEvent there same t event)

/-- What holds of an actor between its turns. -/
structure Inv (a : Actor) : Prop where
  nodup : (idsOf a.roster).Nodup
  isLocal : ∀ p ∈ a.roster, p.isLocal = (p.memberId == a.ownMemberId)
  published : a.participants = a.roster
  attributed : Attributed a.pool
  taken : a.pool.out = []
  known : ∀ memberId, memberId ∈ a.pool.knownMembers ↔ memberId ∈ idsOf a.roster
  tracks : ∀ memberId ∈ idsOf a.roster, memberId ≠ a.ownMemberId → ∀ kind,
    Shown a memberId kind ↔ (memberId, kind) ∈ a.pool.tracks

/-- What a turn makes of an actor. -/
structure Turned (a b : Actor) : Prop where
  inv : Inv b
  ownMemberId : b.ownMemberId = a.ownMemberId
  news : ∃ events, b.events = a.events ++ events ∧
    (∀ event ∈ events, ∀ count ∈ participantCount event, count = b.roster.length) ∧
    (a.arrived = true → a.ended = false → ∀ memberId,
      events.foldl (said memberId) (remoteStreams a.roster memberId) =
        remoteStreams b.roster memberId)

theorem remoteStreams_eq {roster : List Participant} {own : String}
    (isLocal : ∀ p ∈ roster, p.isLocal = (p.memberId == own)) (memberId : String) :
    remoteStreams roster memberId = if memberId = own then none else streamsOf roster memberId := by
  unfold remoteStreams streamsOf
  cases found : roster.find? (·.memberId == memberId) with
  | none => simp
  | some p =>
      have is_member : p.memberId = memberId := by simpa using List.find?_some found
      rw [Option.filter_some, isLocal p (List.mem_of_find?_eq_some found), is_member]
      by_cases own_ : memberId = own
      · simp [own_]
      · simp [own_]

theorem isLocal_of_entries {own : String} (h : Tells a b)
    (isLocal : ∀ p ∈ a.roster, p.isLocal = (p.memberId == own)) :
    ∀ p ∈ b.roster, p.isLocal = (p.memberId == own) := by
  intro p at_
  have there : entry p ∈ a.roster.map entry := h.entries ▸ List.mem_map_of_mem at_
  obtain ⟨q, at_q, same⟩ := List.mem_map.mp there
  have local_ : (entry q).isLocal = (entry p).isLocal := congrArg _ same
  have member : (entry q).memberId = (entry p).memberId := congrArg _ same
  change (entry p).isLocal = ((entry p).memberId == own)
  rw [← local_, ← member]
  exact isLocal q at_q

theorem remote_of_tells {own : String} {events : List CallEvent}
    (isLocal : ∀ p ∈ a.roster, p.isLocal = (p.memberId == own))
    (isLocal' : ∀ p ∈ b.roster, p.isLocal = (p.memberId == own))
    (own_ : events.foldl (said own) none = none)
    (tells : ∀ memberId, memberId ≠ own →
      events.foldl (said memberId) (streamsOf a.roster memberId) = streamsOf b.roster memberId)
    (memberId : String) :
    events.foldl (said memberId) (remoteStreams a.roster memberId) =
      remoteStreams b.roster memberId := by
  rw [remoteStreams_eq isLocal, remoteStreams_eq isLocal']
  split_ifs with is_own
  · rw [is_own]
    exact own_
  · exact tells memberId is_own

/-- An operation that leaves the members alone, and the streams of remote members. -/
structure Local (a b : Actor) : Prop extends Kept a b where
  shown : ∀ memberId, memberId ≠ a.ownMemberId → ∀ kind,
    Shown b memberId kind ↔ Shown a memberId kind

theorem Local.of_roster (h : Kept a b) (roster : b.roster = a.roster) : Local a b :=
  ⟨h, fun _ _ _ => shown_of_roster roster⟩

theorem Inv.kept (inv : Inv a) (h : Local a b) : Inv b where
  nodup := ids_of_entries h.toTells ▸ inv.nodup
  isLocal := h.ownMemberId ▸ isLocal_of_entries h.toTells inv.isLocal
  published := h.published inv.published
  attributed := h.pool.attributed inv.attributed
  taken := h.pool.taken inv.taken
  known memberId := by
    rw [h.pool.known, ids_of_entries h.toTells]
    exact inv.known memberId
  tracks memberId there remote kind := by
    rw [h.pool.tracks]
    rw [ids_of_entries h.toTells] at there
    rw [h.ownMemberId] at remote
    exact (h.shown memberId remote kind).trans (inv.tracks memberId there remote kind)

theorem Turned.of_tells (before : Inv a) (after : Inv b) (own : b.ownMemberId = a.ownMemberId)
    (h : Tells a b) : Turned a b where
  inv := after
  ownMemberId := own
  news := by
    obtain ⟨events, are, silent, tells⟩ := h.told
    refine ⟨events, are, fun event there count is_count => ?_, fun _ _ => ?_⟩
    · rw [silent event there] at is_count
      cases is_count
    · exact remote_of_tells before.isLocal (own ▸ after.isLocal) (tells _).2
        fun memberId _ => (tells memberId).1

/-- What the pool reports of a call is applied: the members stay, and each remote member shows
the streams that have a track. -/
theorem throughPool_spec (call : Call) (t : Answers) (attributed : Attributed a.pool)
    (taken : a.pool.out = [])
    (shows : ∀ memberId ∈ idsOf a.roster, memberId ≠ a.ownMemberId → ∀ kind,
      Shown a memberId kind ↔ (memberId, kind) ∈ remembered a.pool.tracks.keys call) :
    Tells a (a.throughPool call t) ∧ (a.throughPool call t).ownMemberId = a.ownMemberId ∧
      Attributed (a.throughPool call t).pool ∧ (a.throughPool call t).pool.out = [] ∧
      (a.throughPool call t).pool.knownMembers =
        (a.pool.perform ⟨call, t.now, t.takeOver⟩).knownMembers ∧
      ∀ memberId ∈ idsOf a.roster, memberId ≠ a.ownMemberId → ∀ kind,
        Shown (a.throughPool call t) memberId kind ↔
          (memberId, kind) ∈ (a.throughPool call t).pool.tracks := by
  have called : Tells a (a.callPool call t).1 := .of_same rfl rfl rfl
  have kept := Kept.applyPoolEvents (a.callPool call t).1 t (a.callPool call t).2
  refine ⟨called.trans kept.toTells, kept.ownMemberId,
    kept.pool.attributed (attributed.perform _).take, kept.pool.taken rfl, kept.pool.known,
    fun memberId there remote kind => ?_⟩
  let streams := remembered a.pool.tracks.keys call
  have same (kind : MediaStreamKind) : Shown (a.callPool call t).1 memberId kind ↔
      (memberId, kind) ∈ streams :=
    (shown_of_roster rfl).trans (shows memberId there remote kind)
  refine (shown_applyPoolEvents (a := (a.callPool call t).1) there same t _ kind).trans ?_
  rw [show (a.throughPool call t).pool.tracks = _ from kept.pool.tracks]
  exact heard_perform attributed taken (fun s => AList.mem_keys.symm) ⟨call, t.now, t.takeOver⟩ _

/-- A call that is no snapshot. -/
theorem turned_throughPool (inv : Inv a) {call : Call} (t : Answers)
    (other : ∀ snapshot, call ≠ .applySnapshot snapshot) :
    Turned a (a.throughPool call t) := by
  have same : remembered a.pool.tracks.keys call = a.pool.tracks.keys := by
    unfold remembered
    split
    · next snapshot => exact absurd rfl (other snapshot)
    · rfl
  obtain ⟨tells, own, attributed, taken, known, shows⟩ := throughPool_spec call t
    inv.attributed inv.taken fun memberId there remote kind => by
      rw [same, AList.mem_keys.symm]
      exact inv.tracks memberId there remote kind
  have ids := ids_of_entries tells
  refine .of_tells inv ?_ own tells
  refine
    { nodup := ids ▸ inv.nodup
      isLocal := own ▸ isLocal_of_entries tells inv.isLocal
      published := tells.published inv.published
      attributed := attributed
      taken := taken
      known := fun memberId => ?_
      tracks := fun memberId there remote kind => ?_ }
  · rw [known, ids, (moves_perform (p := a.pool) other).known]
    exact inv.known memberId
  · rw [ids] at there
    rw [own] at remote
    exact shows memberId there remote kind

theorem streamsOf_stays (named : Named snapshot memberId) (roster : List Participant) :
    streamsOf (roster.filter fun p => (snapshot.map (·.memberId)).contains p.memberId) memberId =
      streamsOf roster memberId := by
  unfold streamsOf
  rw [List.find?_filter]
  congr 1
  refine congrArg (fun f => List.find? f roster) (funext fun p => ?_)
  by_cases is_member : p.memberId = memberId
  · simp [is_member, named_iff.mp named]
  · simp [is_member]

/-- What the roster is once it is reconciled, for whoever is on it. -/
structure Reconciled (snapshot : List JoinedMembership) (a b : Actor) : Prop where
  pool : b.pool = a.pool
  ownMemberId : b.ownMemberId = a.ownMemberId
  ids : ∀ memberId, memberId ∈ idsOf b.roster ↔ Named snapshot memberId
  nodup : (idsOf b.roster).Nodup
  isLocal : ∀ p ∈ b.roster, p.isLocal = (p.memberId == b.ownMemberId)
  streams : ∀ memberId, Named snapshot memberId → memberId ≠ a.ownMemberId →
    streamsOf b.roster memberId =
      if memberId ∈ idsOf a.roster then streamsOf a.roster memberId else some []

theorem reconciled (inv : Inv a) (snapshot : List JoinedMembership) :
    Reconciled snapshot a (a.reconcileRoster snapshot) := by
  obtain ⟨announces, b, own, -, kept, arrived⟩ := reconcileRoster_spec a snapshot
  refine
    { pool := announces.pool
      ownMemberId := announces.ownMemberId
      ids := fun memberId => (arrived.ids memberId).trans (or_iff_right_of_imp ?_)
      nodup := arrived.nodup ?_
      isLocal := fun p at_ => ?_
      streams := fun memberId named remote => ?_ }
  · intro there
    obtain ⟨p, at_, rfl⟩ := List.mem_map.mp there
    rw [kept] at at_
    exact named_iff.mpr (List.contains_iff_mem.mp (List.mem_filter.mp at_).2)
  · rw [kept]
    exact inv.nodup.sublist (List.filter_sublist.map _)
  · rw [announces.ownMemberId]
    obtain before | ⟨member, -, rfl, -⟩ := arrived.members p at_
    · rw [kept] at before
      exact inv.isLocal p (List.mem_filter.mp before).1
    · change (member.memberId == b.ownMemberId) = _
      rw [own]
      rfl
  · rw [arrived.streams, kept, streamsOf_stays named, if_pos named]
    split_ifs with there
    · obtain ⟨streams, found⟩ := Option.isSome_iff_exists.mp (streamsOf_isSome.mpr there)
      rw [found, Option.some_or]
    · rw [streamsOf_eq_none.mpr there, Option.none_or, Actor.ownPublishedStreams, own,
        if_neg remote]

theorem Reconciled.shows (inv : Inv a) (h : Reconciled snapshot a b) :
    ∀ memberId ∈ idsOf b.roster, memberId ≠ b.ownMemberId → ∀ kind,
      Shown b memberId kind ↔
        (memberId, kind) ∈ remembered b.pool.tracks.keys (.applySnapshot snapshot) := by
  intro memberId there remote kind
  rw [h.ownMemberId] at remote
  have named := (h.ids memberId).mp there
  rw [remembered, List.mem_filter, AList.mem_keys.symm, h.pool,
    and_iff_left (decide_eq_true named), Shown, h.streams memberId named remote]
  split_ifs with before
  · exact inv.tracks memberId before remote kind
  · refine iff_of_false ?_ fun tracked => before ?_
    · simp
    · exact (inv.known memberId).mp (inv.attributed.streams tracked)

theorem turned_applySnapshot (inv : Inv a) (snapshot : List JoinedMembership) (t : Answers) :
    Turned a (a.applySnapshot snapshot t) := by
  have ready := reconciled inv snapshot
  obtain ⟨announces, -⟩ := reconcileRoster_spec a snapshot
  obtain ⟨tells, own, attributed, taken, known, shows⟩ :=
    throughPool_spec (.applySnapshot snapshot) t (ready.pool ▸ inv.attributed)
      (ready.pool ▸ inv.taken) (ready.shows inv)
  have ids := ids_of_entries tells
  have named (memberId : String) :
      memberId ∈ idsOf (a.applySnapshot snapshot t).roster ↔ Named snapshot memberId := by
    rw [← ready.ids memberId, ← ids]
    rfl
  have after : Inv (a.applySnapshot snapshot t) :=
    { nodup := ids ▸ ready.nodup
      isLocal := fun p at_ => by
        rw [isLocal_of_entries tells ready.isLocal p at_, ← own]
        rfl
      published := rfl
      attributed := attributed
      taken := taken
      known := fun memberId => by
        rw [named]
        exact known ▸ LateMembers.mem_known_applySnapshot (ready.pool ▸ inv.attributed)
      tracks := fun memberId there remote kind => by
        refine shows memberId (ids ▸ there) ?_ kind
        rw [← own]
        exact remote }
  have size : (snapshot.map (·.memberId)).dedup.length =
      (a.applySnapshot snapshot t).roster.length := by
    rw [← List.length_map (f := fun p : Participant => p.memberId)]
    refine List.Perm.length_eq ((List.perm_ext_iff_of_nodup (List.nodup_dedup _)
      after.nodup).mpr fun memberId => ?_)
    rw [List.mem_dedup, named, named_iff]
  obtain ⟨events, are, counts, ownUntold, announced⟩ := announces.told
  obtain ⟨later, are', silent, tells'⟩ := tells.told
  refine ⟨after, own.trans ready.ownMemberId, events ++ later, ?_, ?_, fun arrived live => ?_⟩
  · change (Actor.throughPool _ _ t).events = _
    rw [are', are, List.append_assoc]
  · intro event there count is_count
    obtain there | there := List.mem_append.mp there
    · rw [← size]
      exact counts event there count is_count
    · rw [silent event there] at is_count
      cases is_count
  · refine remote_of_tells inv.isLocal (own.trans ready.ownMemberId ▸ after.isLocal) ?_ ?_
    · rw [List.foldl_append, ownUntold]
      exact (tells' a.ownMemberId).2
    · intro memberId remote
      rw [List.foldl_append, announced (by rw [arrived, live]; rfl) memberId remote]
      exact (tells' memberId).1

theorem Turned.then (first : Turned a b) (h : Local b c) : Turned a c where
  inv := first.inv.kept h
  ownMemberId := h.ownMemberId.trans first.ownMemberId
  news := by
    have own := h.ownMemberId.trans first.ownMemberId
    obtain ⟨events, are, counts, folded⟩ := first.news
    obtain ⟨later, are', silent, tells⟩ := h.told
    refine ⟨events ++ later, by rw [are', are, List.append_assoc], ?_, fun arrived live => ?_⟩
    · intro event there count is_count
      have size : c.roster.length = b.roster.length := by
        have ids := congrArg List.length (ids_of_entries h.toTells)
        rwa [idsOf, idsOf, List.length_map, List.length_map] at ids
      obtain there | there := List.mem_append.mp there
      · rw [size]
        exact counts event there count is_count
      · rw [silent event there] at is_count
        cases is_count
    · intro memberId
      rw [List.foldl_append, folded arrived live memberId]
      exact remote_of_tells first.inv.isLocal (h.ownMemberId ▸ (first.inv.kept h).isLocal)
        (tells _).2 (fun memberId _ => (tells memberId).1) memberId

theorem Turned.of_local (inv : Inv a) (h : Local a b) : Turned a b :=
  .of_tells inv (inv.kept h) h.ownMemberId h.toTells

theorem local_setLocalMuted (a : Actor) (kind : MediaStreamKind) (muted : Bool) (t : Answers) :
    Local a (a.setLocalMuted kind muted t) := by
  refine ⟨.setLocalMuted a kind muted t, fun memberId remote kind' => ?_⟩
  unfold Actor.setLocalMuted
  split
  · rfl
  · extract_lets told calls tracks
    split_ifs
    · refine (shown_restreams (restreams_setMemberMuted _ _ kind muted)).trans ?_
      rw [if_neg remote]
      exact shown_of_roster rfl
    · exact shown_of_roster rfl

theorem local_localPublished (a : Actor) (kind : MediaStreamKind) (muted : Bool) (track : ℕ) :
    Local a (a.localPublished kind muted track) := by
  refine ⟨.localPublished a kind muted track, fun memberId remote kind' => ?_⟩
  refine (shown_restreams (restreams_addLocalStream _ _ kind)).trans ?_
  rw [if_neg remote]
  exact shown_of_roster rfl

theorem local_localUnpublished (a : Actor) (kind : MediaStreamKind) (track : ℕ) :
    Local a (a.localUnpublished kind track) := by
  refine ⟨.localUnpublished a kind track, fun memberId remote kind' => ?_⟩
  unfold Actor.localUnpublished
  split_ifs
  · refine (shown_restreams (restreams_removeStream _ _ kind)).trans ?_
    rw [if_neg remote]
    exact shown_of_roster rfl
  · rfl

theorem local_speakerTimer (a : Actor) (memberId : String) (generation : ℕ) :
    Local a (a.speakerTimer memberId generation) := by
  refine .of_roster (.speakerTimer a memberId generation) ?_
  unfold Actor.speakerTimer
  split
  · rfl
  · split <;> rfl

theorem local_end (a : Actor) (t : Answers) : Local a (a.end_ t) := by
  refine .of_roster (.end_ a t) ?_
  obtain ⟨pool, tasks, changed⟩ := end_changes a t
  rw [changed]

theorem turned_handleMessage (inv : Inv a) (message : ActorMessage) (t : Answers) :
    Turned a (a.handleMessage message t) := by
  cases message with
  | adoptConnection key connection =>
      exact .of_local inv (.of_roster (.callPool _ t (fun _ h => nomatch h) rfl) rfl)
  | connectOwn key connection => exact turned_throughPool inv t fun _ h => nomatch h
  | keyImported identity keyIndex => exact turned_throughPool inv t fun _ h => nomatch h
  | localPublished kind muted track => exact .of_local inv (local_localPublished a kind muted track)
  | localUnpublished kind track => exact .of_local inv (local_localUnpublished a kind track)
  | setLocalMuted kind muted => exact .of_local inv (local_setLocalMuted a kind muted t)
  | setConstraints memberId kind constraints =>
      exact .of_local inv (.of_roster (.setConstraints a memberId kind constraints t) rfl)
  | speakerTimer memberId generation =>
      exact .of_local inv (local_speakerTimer a memberId generation)
  | shutdown => exact .of_local inv (local_end a t)

theorem turned_turn (inv : Inv a) (turn : Turn) (t : Answers) : Turned a (a.turn turn t) := by
  have received : Turned a (a.receive turn t) := by
    cases turn with
    | signalling reachable => exact turned_throughPool inv t fun _ h => nomatch h
    | lapsed coreLapsed =>
        exact .of_local inv (.of_roster (.of_tells (.of_same rfl rfl rfl) rfl rfl rfl) rfl)
    | memberships snapshot => exact turned_applySnapshot inv snapshot t
    | ended => exact .of_local inv (local_end a t)
    | pool message => exact turned_throughPool inv t fun _ h => nomatch h
    | message message => exact turned_handleMessage inv message t
  exact received.then (.of_roster (.applyPause _ t) rfl)

theorem inv_new (config : PoolConfig) : Inv (.new config) where
  nodup := List.nodup_nil
  isLocal _ at_ := nomatch at_
  published := rfl
  attributed := attributed_new config
  taken := rfl
  known _ := Iff.rfl
  tracks _ there := nomatch there

/-- What holds of an actor and its host between turns. -/
structure Between (w : Watched) : Prop where
  inv : Inv w.actor
  view : w.actor.arrived = true → ∀ memberId,
    remoteStreams w.actor.roster memberId = w.view memberId
  counts : ∀ event ∈ w.news, ∀ count ∈ participantCount event, count = w.actor.roster.length

theorem between_step {w v : Watched} (input : Turn × Answers) (between : Between w)
    (h : step w input = some v) : Between v := by
  have live : ¬ w.actor.ended = true := fun ended => by simp [step, ended] at h
  rw [step, if_neg live] at h
  cases h
  have turned := turned_turn between.inv input.1 input.2
  obtain ⟨events, are, counts, folded⟩ := turned.news
  have news : (w.actor.turn input.1 input.2).events.drop w.actor.events.length = events := by
    rw [are, List.drop_left]
  refine ⟨turned.inv, fun _ memberId => ?_, ?_⟩
  · dsimp only
    rw [news]
    split_ifs with arrived
    · rw [← between.view arrived memberId]
      exact (folded arrived (Bool.eq_false_iff.mpr live) memberId).symm
    · rw [turned.inv.published]
  · dsimp only
    rw [news]
    exact counts

theorem right_of_between {w : Watched} (between : Between w) : Right w where
  view := between.inv.published ▸ between.view
  counts := between.inv.published ▸ between.counts
  tracks memberId remote kind := by
    rw [between.inv.published, remoteStreams_eq between.inv.isLocal, if_neg remote]
    by_cases there : memberId ∈ idsOf w.actor.roster
    · exact between.inv.tracks memberId there remote kind
    · rw [streamsOf_eq_none.mpr there]
      refine iff_of_false (by simp) fun tracked => there ?_
      exact (between.inv.known memberId).mp (between.inv.attributed.streams tracked)

end

/-- In every run until the engine ends, whoever folds the engine's events from our arrival on
has the remote members of the roster that is published after each turn, with their streams
and mutes; the counts of a turn's events are the size of its roster, and the streams of
remote members are those that have a track. -/
theorem events_agree (config : PoolConfig) (turns : List (Turn × Answers)) :
    Always step Right (start config) turns :=
  always_of_step (fun _ input _ between next => between_step input between next)
    (fun _ between => right_of_between between)
    { inv := inv_new config
      view := fun arrived => by cases arrived
      counts := fun _ there => by cases there }
    turns

end MatrixRtc.RosterEvents

import MatrixRtc.CallEngines

/-!
# What an engine tells of its roster

The events of an engine say what happens to the streams of the members of its roster. Each
operation of the actor that leaves alone who is on the roster is shown to tell of the streams
it changes, and to publish the roster that it leaves.
-/
namespace MatrixRtc.EngineStreams
open MemberEvents MediaTransports Tables MediaPools PoolMoves PoolMembers HostRosters CallEngines

/-- The streams of the participant of an id. -/
def streamsOf (roster : List Participant) (memberId : String) : Option (List StreamState) :=
  (roster.find? (·.memberId == memberId)).map (·.streams)

/-- A participant without its streams: who it is. -/
def entry (p : Participant) : Participant := { p with streams := [] }

/-- The size of the roster that an event carries. -/
def participantCount : CallEvent → Option ℕ
  | .participantJoined _ _ count | .participantLeft _ count => some count
  | _ => none

def withMute (kind : MediaStreamKind) (muted : Bool) (streams : List StreamState) :
    List StreamState :=
  streams.map fun stream => if stream.kind = kind then ⟨kind, muted⟩ else stream

/-- The streams of a member after an event, as the event says. -/
def said (memberId : String) (streams : Option (List StreamState)) :
    CallEvent → Option (List StreamState)
  | .participantJoined other _ _ => if other = memberId then some [] else streams
  | .participantLeft other _ => if other = memberId then none else streams
  | .streamStarted other kind =>
      if other = memberId then streams.map (· ++ [⟨kind, false⟩]) else streams
  | .streamStopped other kind =>
      if other = memberId then streams.map (·.filter (·.kind != kind)) else streams
  | .streamMuted other kind =>
      if other = memberId then streams.map (withMute kind true) else streams
  | .streamUnmuted other kind =>
      if other = memberId then streams.map (withMute kind false) else streams
  | _ => streams

/-- What an operation does that leaves alone who is on the roster: it tells of the streams
that it changes, and publishes the roster if it was published. -/
structure Tells (a b : Actor) : Prop where
  entries : b.roster.map entry = a.roster.map entry
  published : a.participants = a.roster → b.participants = b.roster
  told : ∃ events, b.events = a.events ++ events ∧
    (∀ event ∈ events, participantCount event = none) ∧
    ∀ memberId, events.foldl (said memberId) (streamsOf a.roster memberId) =
        streamsOf b.roster memberId ∧
      events.foldl (said memberId) none = none

section
variable {a b c : Actor} {memberId : String} {kind : MediaStreamKind}

namespace Tells

theorem refl (a : Actor) : Tells a a where
  entries := rfl
  published := id
  told := ⟨[], (List.append_nil _).symm, by simp, fun _ => ⟨rfl, rfl⟩⟩

theorem trans (first : Tells a b) (second : Tells b c) : Tells a c where
  entries := second.entries.trans first.entries
  published h := second.published (first.published h)
  told := by
    obtain ⟨events, are, silent, tells⟩ := first.told
    obtain ⟨later, are', silent', tells'⟩ := second.told
    refine ⟨events ++ later, by rw [are', are, List.append_assoc], ?_, fun memberId => ?_⟩
    · intro event there
      obtain there | there := List.mem_append.mp there
      · exact silent event there
      · exact silent' event there
    · rw [List.foldl_append, List.foldl_append, (tells memberId).1, (tells memberId).2]
      exact tells' memberId

theorem of_same (roster : b.roster = a.roster) (participants : b.participants = a.participants)
    (events : b.events = a.events) : Tells a b where
  entries := by rw [roster]
  published h := by rw [roster, participants, h]
  told := ⟨[], by rw [events, List.append_nil], by simp, fun _ => ⟨by rw [roster]; rfl, rfl⟩⟩

theorem emit {event : CallEvent} (silent : participantCount event = none)
    (other : ∀ memberId streams, said memberId streams event = streams) :
    Tells a (a.emit event) where
  entries := rfl
  published := id
  told := ⟨[event], rfl, by simpa using silent,
    fun memberId => ⟨other memberId _, other memberId _⟩⟩

end Tells

theorem streamsOf_setStreams (streams : List StreamState) (other : String) :
    streamsOf (a.setStreams memberId streams).roster other =
      if other = memberId then (streamsOf a.roster other).map fun _ => streams
      else streamsOf a.roster other := by
  unfold streamsOf Actor.setStreams
  rw [List.find?_map]
  have same : ((fun p : Participant => p.memberId == other) ∘ fun p : Participant =>
      if p.memberId = memberId then { p with streams := streams } else p) =
        fun p => p.memberId == other := by
    funext p
    rw [Function.comp_apply]
    split_ifs <;> rfl
  rw [same]
  cases found : a.roster.find? (·.memberId == other) with
  | none => simp
  | some p =>
      have is_other : p.memberId = other := by
        simpa using List.find?_some found
      rw [Option.map_some, Option.map_some, is_other]
      split_ifs <;> rfl

theorem entries_setStreams (streams : List StreamState) :
    (a.setStreams memberId streams).roster.map entry = a.roster.map entry := by
  unfold Actor.setStreams
  rw [List.map_map]
  refine List.map_congr_left fun p _ => ?_
  rw [Function.comp_apply]
  split_ifs <;> rfl

/-- The streams of one participant are changed, and nothing else. -/
structure Restreams (a b : Actor) (memberId : String)
    (change : List StreamState → List StreamState) : Prop extends Tells a b where
  streams : ∀ other, streamsOf b.roster other =
    if other = memberId then (streamsOf a.roster other).map change else streamsOf a.roster other
  rest : b = { a with roster := b.roster, participants := b.participants, events := b.events }

theorem restreams_same {change : List StreamState → List StreamState}
    (same : ∀ p, a.participant memberId = some p → change p.streams = p.streams) :
    Restreams a a memberId change where
  toTells := .refl a
  streams other := by
    split_ifs with is_other
    · subst is_other
      unfold streamsOf
      cases found : a.roster.find? (·.memberId == other) with
      | none => rfl
      | some p => exact congrArg some (same p found).symm
    · rfl
  rest := rfl

theorem restreams_changed (change : List StreamState → List StreamState)
    (events : List CallEvent) {p : Participant} (found : a.participant memberId = some p)
    (silent : ∀ event ∈ events, participantCount event = none)
    (tells : events.foldl (said memberId) (some p.streams) = some (change p.streams))
    (others : ∀ other streams, other ≠ memberId ∨ streams = none →
      events.foldl (said other) streams = streams) :
    Restreams a
      { a with
        roster := (a.setStreams memberId (change p.streams)).roster
        participants := (a.setStreams memberId (change p.streams)).roster
        events := a.events ++ events }
      memberId change := by
  have before : streamsOf a.roster memberId = some p.streams := congrArg (Option.map _) found
  have streams (other : String) :
      streamsOf (a.setStreams memberId (change p.streams)).roster other =
        if other = memberId then (streamsOf a.roster other).map change
        else streamsOf a.roster other := by
    rw [streamsOf_setStreams]
    split_ifs with is_other
    · rw [is_other, before]
      rfl
    · rfl
  refine
    { entries := entries_setStreams _
      published := fun _ => rfl
      told := ⟨events, rfl, silent, fun other => ⟨?_, others other none (.inr rfl)⟩⟩
      streams := streams
      rest := rfl }
  rw [streams]
  split_ifs with is_other
  · rw [is_other, before]
    exact tells
  · exact others other _ (.inl is_other)

/-- What `add_stream` and its like make of the streams. -/
def added (kind : MediaStreamKind) (muted : Bool) (streams : List StreamState) :
    List StreamState :=
  if Actor.hasStream streams kind then streams else streams ++ [⟨kind, muted⟩]

def removed (kind : MediaStreamKind) (streams : List StreamState) : List StreamState :=
  streams.filter (·.kind != kind)

/-- What `set_member_muted` makes of the streams. -/
def remuted (kind : MediaStreamKind) (muted : Bool) (streams : List StreamState) :
    List StreamState :=
  match streams.find? (·.kind == kind) with
  | none => streams
  | some stream => if stream.muted = muted then streams else withMute kind muted streams

theorem restreams_addStream (a : Actor) (memberId : String) (kind : MediaStreamKind) :
    Restreams a (a.addStream memberId kind) memberId (added kind false) := by
  unfold Actor.addStream
  cases found : a.participant memberId with
  | none =>
      refine restreams_same fun p there => ?_
      cases found.symm.trans there
  | some p =>
      dsimp only
      split_ifs with has
      · refine restreams_same fun q there => ?_
        cases found.symm.trans there
        exact if_pos has
      · have appended : p.streams ++ [⟨kind, false⟩] = added kind false p.streams :=
          (if_neg has).symm
        rw [appended]
        refine restreams_changed _ [.streamStarted memberId kind] found
          (by simp [participantCount]) ?_ ?_
        · rw [← appended, List.foldl_cons, List.foldl_nil, said, if_pos rfl, Option.map_some]
        · rintro other streams (differs | rfl)
          · exact if_neg (Ne.symm differs)
          · simp [said]

theorem restreams_removeStream (a : Actor) (memberId : String) (kind : MediaStreamKind) :
    Restreams a (a.removeStream memberId kind) memberId (removed kind) := by
  unfold Actor.removeStream
  cases found : a.participant memberId with
  | none =>
      refine restreams_same fun p there => ?_
      cases found.symm.trans there
  | some p =>
      dsimp only
      split_ifs with has
      · refine restreams_changed (removed kind) [.streamStopped memberId kind] found
          (by simp [participantCount]) ?_ ?_
        · rw [List.foldl_cons, List.foldl_nil, said, if_pos rfl, Option.map_some, removed]
        · rintro other streams (differs | rfl)
          · exact if_neg (Ne.symm differs)
          · simp [said]
      · refine restreams_same fun q there => ?_
        cases found.symm.trans there
        refine List.filter_eq_self.mpr fun stream at_ => bne_iff_ne.mpr fun is_kind => has ?_
        exact List.any_eq_true.mpr ⟨stream, at_, beq_iff_eq.mpr is_kind⟩

theorem said_muteEvent (other : String) (muted : Bool) (streams : Option (List StreamState)) :
    said other streams (Actor.muteEvent memberId kind muted) =
      if memberId = other then streams.map (withMute kind muted) else streams := by
  cases muted <;> rfl

theorem restreams_setMemberMuted (a : Actor) (memberId : String) (kind : MediaStreamKind)
    (muted : Bool) :
    Restreams a (a.setMemberMuted memberId kind muted) memberId (remuted kind muted) := by
  unfold Actor.setMemberMuted
  cases found : a.participant memberId with
  | none =>
      refine restreams_same fun p there => ?_
      cases found.symm.trans there
  | some p =>
      dsimp only
      cases of_kind : p.streams.find? (·.kind == kind) with
      | none =>
          refine restreams_same fun q there => ?_
          cases found.symm.trans there
          rw [remuted, of_kind]
      | some stream =>
          dsimp only
          split_ifs with already
          · refine restreams_same fun q there => ?_
            cases found.symm.trans there
            rw [remuted, of_kind]
            exact if_pos already
          · have changed : withMute kind muted p.streams = remuted kind muted p.streams := by
              rw [remuted, of_kind]
              exact (if_neg already).symm
            change Restreams a (((a.setStreams memberId (withMute kind muted p.streams)).emit
              (Actor.muteEvent memberId kind muted)).publishRoster) memberId _
            rw [changed]
            refine restreams_changed _ [Actor.muteEvent memberId kind muted] found ?_ ?_ ?_
            · cases muted <;> simp [Actor.muteEvent, participantCount]
            · rw [← changed, List.foldl_cons, List.foldl_nil, said_muteEvent, if_pos rfl,
                Option.map_some]
            · rintro other streams (differs | rfl)
              · rw [List.foldl_cons, List.foldl_nil, said_muteEvent, if_neg (Ne.symm differs)]
              · rw [List.foldl_cons, List.foldl_nil, said_muteEvent, Option.map_none, ite_self]

theorem withMute_of_not_has {streams : List StreamState} {muted : Bool}
    (has : ¬ Actor.hasStream streams kind) : withMute kind muted streams = streams := by
  refine (List.map_congr_left fun stream at_ => if_neg fun is_kind => has ?_).trans
    (List.map_id' streams)
  exact List.any_eq_true.mpr ⟨stream, at_, beq_iff_eq.mpr is_kind⟩

/-- The mute of our publication of a kind. -/
def publishedMute (a : Actor) (kind : MediaStreamKind) : Bool :=
  (a.localTracks.lookup kind).any (·.muted)

theorem restreams_addLocalStream (a : Actor) (memberId : String) (kind : MediaStreamKind) :
    Restreams a (a.addLocalStream memberId kind) memberId (added kind (publishedMute a kind)) := by
  unfold Actor.addLocalStream
  cases found : a.participant memberId with
  | none =>
      refine restreams_same fun p there => ?_
      cases found.symm.trans there
  | some p =>
      dsimp only
      split_ifs with has muted
      · refine restreams_same fun q there => ?_
        cases found.symm.trans there
        exact if_pos has
      · have is_muted : publishedMute a kind = true := muted
        rw [muted]
        have appended : p.streams ++ [⟨kind, true⟩] =
            added kind (publishedMute a kind) p.streams := by
          rw [is_muted]
          exact (if_neg has).symm
        rw [appended]
        have unmuted : withMute kind true (p.streams ++ [⟨kind, false⟩]) =
            p.streams ++ [⟨kind, true⟩] := by
          rw [withMute, List.map_append, ← withMute, withMute_of_not_has has]
          simp
        have both : a.events ++ [.streamStarted memberId kind, .streamMuted memberId kind] =
            a.events ++ [.streamStarted memberId kind] ++ [.streamMuted memberId kind] := by simp
        have changed := restreams_changed (added kind (publishedMute a kind))
          [.streamStarted memberId kind, .streamMuted memberId kind] found
          (by simp [participantCount]) ?_ ?_
        · rw [both] at changed
          exact changed
        · rw [← appended, List.foldl_cons, List.foldl_cons, List.foldl_nil, said, said,
            if_pos rfl, if_pos rfl, Option.map_some, Option.map_some, unmuted]
        · rintro other streams (differs | rfl)
          · rw [List.foldl_cons, List.foldl_cons, List.foldl_nil, said, said,
              if_neg (Ne.symm differs), if_neg (Ne.symm differs)]
          · simp [said]
      · have is_unmuted : publishedMute a kind = false := Bool.eq_false_iff.mpr muted
        rw [Bool.eq_false_iff.mpr muted]
        have appended : p.streams ++ [⟨kind, false⟩] =
            added kind (publishedMute a kind) p.streams := by
          rw [is_unmuted]
          exact (if_neg has).symm
        rw [appended]
        refine restreams_changed (added kind (publishedMute a kind))
          [.streamStarted memberId kind] found (by simp [participantCount]) ?_ ?_
        · rw [← appended, List.foldl_cons, List.foldl_nil, said, if_pos rfl, Option.map_some]
        · rintro other streams (differs | rfl)
          · exact if_neg (Ne.symm differs)
          · simp [said]

theorem pushAll_changes (memberId : String) (undecryptable : Bool) (t : Answers)
    (streams : List (MediaStreamKind × MediaConstraints)) (a : Actor) :
    ∃ pool tasks, streams.foldl
        (fun b stream => b.pushConstraints memberId undecryptable t stream) a =
      { a with pool := pool, tasks := tasks } := by
  induction streams generalizing a with
  | nil => exact ⟨a.pool, a.tasks, rfl⟩
  | cons stream rest ih =>
      obtain ⟨pool, tasks, changed⟩ := ih (a.pushConstraints memberId undecryptable t stream)
      exact ⟨pool, tasks, changed⟩

/-- What the actor keeps of an encryption state, besides what the pool is told. -/
theorem encryptionStateChanged_changes (a : Actor) (memberId : String)
    (state : FrameEncryptionState) (t : Answers) :
    ∃ pool tasks, a.encryptionStateChanged memberId state t =
      { a with
        pool := pool
        tasks := tasks
        encryptionStates := a.encryptionStates.insert memberId state
        undecryptableSince := Actor.failingSince memberId state t.now a.undecryptableSince
        events := a.events ++
          [.frameEncryptionState memberId state (a.encryptionDiagnostic memberId state)] } := by
  unfold Actor.encryptionStateChanged
  extract_lets crossed noted pushed
  obtain ⟨pool, tasks, changed⟩ : ∃ pool tasks, pushed =
      { noted with pool := pool, tasks := tasks } := by
    unfold pushed
    split_ifs
    · exact pushAll_changes memberId _ t _ noted
    · exact ⟨noted.pool, noted.tasks, rfl⟩
  refine ⟨pool, tasks, ?_⟩
  rw [changed]
  rfl

theorem end_changes (a : Actor) (t : Answers) :
    ∃ pool tasks, a.end_ t = { a with pool := pool, tasks := tasks, ended := true } := by
  unfold Actor.end_
  split_ifs with ended
  · exact ⟨a.pool, a.tasks, by rw [← ended]⟩
  · exact ⟨_, _, rfl⟩

/-- What is kept of the pool: its tracks and its members. -/
structure PoolKept (p q : MediaPool) : Prop where
  tracks : q.tracks = p.tracks
  known : q.knownMembers = p.knownMembers
  attributed : Attributed p → Attributed q
  taken : p.out = [] → q.out = []

/-- What an operation does that leaves the members alone, and the tracks of others. -/
structure Kept (a b : Actor) : Prop extends Tells a b where
  ownMemberId : b.ownMemberId = a.ownMemberId
  arrived : b.arrived = a.arrived
  pool : PoolKept a.pool b.pool

theorem PoolKept.refl (p : MediaPool) : PoolKept p p := ⟨rfl, rfl, id, id⟩

theorem PoolKept.trans {p q r : MediaPool} (first : PoolKept p q) (second : PoolKept q r) :
    PoolKept p r where
  tracks := second.tracks.trans first.tracks
  known := second.known.trans first.known
  attributed inv := second.attributed (first.attributed inv)
  taken h := second.taken (first.taken h)

namespace Kept

theorem refl (a : Actor) : Kept a a := ⟨.refl a, rfl, rfl, .refl _⟩

theorem trans (first : Kept a b) (second : Kept b c) : Kept a c where
  toTells := first.toTells.trans second.toTells
  ownMemberId := second.ownMemberId.trans first.ownMemberId
  arrived := second.arrived.trans first.arrived
  pool := first.pool.trans second.pool

theorem foldl {α : Type} {f : Actor → α → Actor} (each : ∀ a x, Kept a (f a x)) (xs : List α)
    (a : Actor) : Kept a (xs.foldl f a) := by
  induction xs generalizing a with
  | nil => exact refl a
  | cons x rest ih => exact (each a x).trans (ih (f a x))

theorem of_tells (h : Tells a b) (ownMemberId : b.ownMemberId = a.ownMemberId)
    (arrived : b.arrived = a.arrived) (pool : b.pool = a.pool) : Kept a b :=
  ⟨h, ownMemberId, arrived, pool ▸ .refl a.pool⟩

theorem of_restreams {change : List StreamState → List StreamState}
    (h : Restreams a b memberId change) : Kept a b :=
  .of_tells h.toTells ((congrArg Actor.ownMemberId h.rest).trans rfl)
    ((congrArg Actor.arrived h.rest).trans rfl) ((congrArg Actor.pool h.rest).trans rfl)

theorem callPool (call : Call) (t : Answers) (other : ∀ snapshot, call ≠ .applySnapshot snapshot)
    (tracks : (a.pool.perform ⟨call, t.now, t.takeOver⟩).tracks = a.pool.tracks) :
    Kept a (a.callPool call t).1 where
  toTells := .of_same rfl rfl rfl
  ownMemberId := rfl
  arrived := rfl
  pool :=
    { tracks := tracks
      known := (moves_perform (p := a.pool) other).known
      attributed := fun inv => (inv.perform _).take
      taken := fun _ => rfl }

theorem end_ (a : Actor) (t : Answers) : Kept a (a.end_ t) := by
  unfold Actor.end_
  split_ifs
  · exact refl a
  · refine Kept.trans (b := { a with ended := true })
      (of_tells (.of_same rfl rfl rfl) rfl rfl rfl) ?_
    refine callPool .close t (fun _ h => nomatch h) ?_
    unfold MediaPool.perform MediaPool.close
    have closed := Quiet.foldl (f := fun (q : MediaPool) (e : Sigma fun _ : String =>
      ManagedConnection) => q.closeEntry e.2) fun q e => quiet_closeEntry e.2
    exact congrArg Media.tracks (closed _ _).media

theorem pushConstraints (a : Actor) (memberId : String) (undecryptable : Bool) (t : Answers)
    (stream : MediaStreamKind × MediaConstraints) :
    Kept a (a.pushConstraints memberId undecryptable t stream) :=
  callPool _ t (fun _ h => nomatch h) rfl

theorem encryptionStateChanged (a : Actor) (memberId : String) (state : FrameEncryptionState)
    (t : Answers) : Kept a (a.encryptionStateChanged memberId state t) := by
  unfold Actor.encryptionStateChanged
  extract_lets crossed noted pushed
  have first : Kept a noted := of_tells (.of_same rfl rfl rfl) rfl rfl rfl
  have second : Kept noted pushed := by
    unfold pushed
    split_ifs
    · exact foldl (fun b stream => pushConstraints b memberId _ t stream) _ noted
    · exact refl noted
  refine (first.trans second).trans (Kept.trans (b := { pushed with
    undecryptableSince := Actor.failingSince memberId state t.now pushed.undecryptableSince })
    (of_tells (.of_same rfl rfl rfl) rfl rfl rfl) ?_)
  exact of_tells (.emit rfl fun _ _ => rfl) rfl rfl rfl

/-- An event of the pool leaves its tracks and its members alone. -/
theorem applyPoolEvent (a : Actor) (t : Answers) (event : PoolEvent) :
    Kept a (a.applyPoolEvent t event) := by
  cases event with
  | streamAdded memberId kind => exact of_restreams (restreams_addStream a memberId kind)
  | streamRemoved memberId kind => exact of_restreams (restreams_removeStream a memberId kind)
  | streamMuted memberId kind muted =>
      exact of_restreams (restreams_setMemberMuted a memberId kind muted)
  | activeSpeakers speakers =>
      refine Kept.trans (b := a.applyRawSpeakers (speakers.map (·.memberId)))
        (of_tells (.of_same rfl rfl rfl) rfl rfl rfl) ?_
      exact of_tells (.emit rfl fun _ _ => rfl) rfl rfl rfl
  | encryptionStateChanged memberId state => exact encryptionStateChanged a memberId state t
  | sentInClear memberId => exact of_tells (.of_same rfl rfl rfl) rfl rfl rfl
  | keyImported memberId identity keyIndex =>
      refine Kept.trans (b := a.recordInstalledKey memberId keyIndex)
        (of_tells (.of_same rfl rfl rfl) rfl rfl rfl) ?_
      exact of_tells (.emit rfl fun _ _ => rfl) rfl rfl rfl
  | unknownParticipant identity => exact of_tells (.emit rfl fun _ _ => rfl) rfl rfl rfl
  | ownConnectionLost reason message => exact end_ a t
  | connectionState key state => exact refl a
  | degraded impaired => exact refl a
  | ownFocusMoved key transport => exact refl a

theorem applyPoolEvents (a : Actor) (t : Answers) (events : List PoolEvent) :
    Kept a (a.applyPoolEvents t events) :=
  foldl (fun a event => applyPoolEvent a t event) events a

theorem localPublished (a : Actor) (kind : MediaStreamKind) (muted : Bool) (track : ℕ) :
    Kept a (a.localPublished kind muted track) := by
  unfold Actor.localPublished
  refine Kept.trans (b := { a with localTracks := a.localTracks.insert kind ⟨track, muted, muted⟩ })
    (of_tells (.of_same rfl rfl rfl) rfl rfl rfl) ?_
  exact of_restreams (restreams_addLocalStream _ _ kind)

theorem setLocalMuted (a : Actor) (kind : MediaStreamKind) (muted : Bool) (t : Answers) :
    Kept a (a.setLocalMuted kind muted t) := by
  unfold Actor.setLocalMuted
  split
  · exact refl a
  · next publication _ =>
      extract_lets told calls tracks
      split_ifs
      · refine Kept.trans (b := { a with muteCalls := calls, localTracks := tracks })
          (of_tells (.of_same rfl rfl rfl) rfl rfl rfl) ?_
        exact of_restreams (restreams_setMemberMuted _ _ kind muted)
      · exact of_tells (.of_same rfl rfl rfl) rfl rfl rfl

theorem localUnpublished (a : Actor) (kind : MediaStreamKind) (track : ℕ) :
    Kept a (a.localUnpublished kind track) := by
  unfold Actor.localUnpublished
  split_ifs
  · refine Kept.trans (b := { a with localTracks := a.localTracks.erase kind })
      (of_tells (.of_same rfl rfl rfl) rfl rfl rfl) ?_
    exact of_restreams (restreams_removeStream _ _ kind)
  · exact refl a

theorem setConstraints (a : Actor) (memberId : String) (kind : MediaStreamKind)
    (constraints : MediaConstraints) (t : Answers) :
    Kept a (a.setConstraints memberId kind constraints t) := by
  unfold Actor.setConstraints
  extract_lets b
  have noted : Kept a b := of_tells (.of_same rfl rfl rfl) rfl rfl rfl
  exact noted.trans (pushConstraints b memberId _ t (kind, constraints))

theorem speakerTimer (a : Actor) (memberId : String) (generation : ℕ) :
    Kept a (a.speakerTimer memberId generation) := by
  unfold Actor.speakerTimer
  split
  · exact refl a
  · split
    · exact of_tells (.of_same rfl rfl rfl) rfl rfl rfl
    · exact refl a

theorem applyPause (a : Actor) (t : Answers) : Kept a (a.applyPause t) :=
  of_tells (.of_same rfl rfl rfl) rfl rfl rfl

end Kept

theorem tells_throughPool (a : Actor) (call : Call) (t : Answers) :
    Tells a (a.throughPool call t) :=
  Tells.trans (b := (a.callPool call t).1) (.of_same rfl rfl rfl)
    (Kept.applyPoolEvents _ t _).toTells

theorem tells_handleMessage (a : Actor) (message : ActorMessage) (t : Answers) :
    Tells a (a.handleMessage message t) := by
  cases message with
  | adoptConnection key connection => exact .of_same rfl rfl rfl
  | connectOwn key connection => exact tells_throughPool a _ t
  | keyImported identity keyIndex => exact tells_throughPool a _ t
  | localPublished kind muted track => exact (Kept.localPublished a kind muted track).toTells
  | localUnpublished kind track => exact (Kept.localUnpublished a kind track).toTells
  | setLocalMuted kind muted => exact (Kept.setLocalMuted a kind muted t).toTells
  | setConstraints memberId kind constraints =>
      exact (Kept.setConstraints a memberId kind constraints t).toTells
  | speakerTimer memberId generation => exact (Kept.speakerTimer a memberId generation).toTells
  | shutdown => exact (Kept.end_ a t).toTells

theorem tells_turn (a : Actor) {turn : Turn} (t : Answers)
    (other : ∀ snapshot, turn ≠ .memberships snapshot) : Tells a (a.turn turn t) := by
  refine Tells.trans (b := a.receive turn t) ?_ (Kept.applyPause _ t).toTells
  cases turn with
  | signalling reachable => exact tells_throughPool a _ t
  | lapsed coreLapsed => exact .of_same rfl rfl rfl
  | memberships snapshot => exact absurd rfl (other snapshot)
  | ended => exact (Kept.end_ a t).toTells
  | pool message => exact tells_throughPool a _ t
  | message message => exact tells_handleMessage a message t

end

end MatrixRtc.EngineStreams

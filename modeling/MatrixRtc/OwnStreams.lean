import MatrixRtc.OwnMedia
import MatrixRtc.RosterMembers

/-!
# Our own entry and our own publications

Three records are kept of each of our publications: what the user last asked, what the
transport was last told, and what our roster entry shows. The transport follows the user and
the lapse in every run. The entry follows the user in exactly the runs in which no report of a
mute of ours is of another mute than the one last asked, and in which a kind that our entry
has is published again only with the mute that was last asked.
-/
namespace MatrixRtc.OwnStreams
open MemberEvents MediaTransports Tables MediaPools PoolMembers OwnMedia
open HostRosters CallEngines EngineStreams EngineSnapshots StepRuns

/-- What the transport has of our tracks: whether each is muted and whether it refused the
last mute of each, the kind that each went up as, and the mutes that changed something. -/
structure Uplink where
  muted : ℕ → Bool
  refused : ℕ → Bool
  tracks : List (ℕ × MediaStreamKind)
  changes : List (ℕ × Bool)

namespace Uplink

def empty : Uplink := ⟨fun _ => false, fun _ => false, [], []⟩

def publish (u : Uplink) (kind : MediaStreamKind) (muted : Bool) (track : ℕ) : Uplink :=
  { u with
    muted := Function.update u.muted track muted
    refused := Function.update u.refused track false
    tracks := (track, kind) :: u.tracks }

/-- The transport is told a mute. -/
def tell (u : Uplink) (call : MuteCall) : Uplink :=
  if call.taken then
    { u with
      muted := Function.update u.muted call.track call.muted
      refused := Function.update u.refused call.track false
      changes := if u.muted call.track = call.muted then u.changes
        else (call.track, call.muted) :: u.changes }
  else { u with refused := Function.update u.refused call.track true }

/-- A track of the kind was changed to this mute. -/
def changed (u : Uplink) (kind : MediaStreamKind) (muted : Bool) : Bool :=
  u.tracks.any fun track => track.2 == kind && u.changes.contains (track.1, muted)

end Uplink

/-- A connection's word that a track of a participant is muted or not. -/
structure MuteWord where
  connectionKey : String
  generation : ℕ
  identity : String
  kind : MediaStreamKind
  muted : Bool

def muteWord : Turn → Option MuteWord
  | .pool (.connection key generation (.trackMuted identity kind)) =>
      some ⟨key, generation, identity, kind, true⟩
  | .pool (.connection key generation (.trackUnmuted identity kind)) =>
      some ⟨key, generation, identity, kind, false⟩
  | _ => none

/-- The kind that a turn publishes, with its mute and its track. -/
def publication : Turn → Option (MediaStreamKind × Bool × ℕ)
  | .message (.localPublished kind muted track) => some (kind, muted, track)
  | _ => none

/-- An actor, the mute that was last asked of each kind, and the transport. -/
structure Watched where
  actor : Actor
  asked : MediaStreamKind → Bool
  uplink : Uplink

def start (config : PoolConfig) : Watched := ⟨.new config, fun _ => false, .empty⟩

/-- Nothing subscribes us to ourselves, `ours` being the identities that our membership may
have; a mute of ours is reported only once it was made, and each publication is a track of
its own. -/
def possible (ours : List String) (w : Watched) (turn : Turn) : Bool :=
  (match turn with
  | .memberships snapshot => snapshot.all fun member =>
      member.memberId != w.actor.ownMemberId ||
        (remoteIdentity w.actor.pool.transports member).all ours.contains
  | .pool (.connection _ _ (.trackAdded identity _ _)) => !ours.contains identity
  | _ => true) &&
  (muteWord turn).all (fun word =>
    !ours.contains word.identity || w.uplink.changed word.kind word.muted) &&
  (publication turn).all fun new => !(w.uplink.tracks.map (·.1)).contains new.2.2

/-- The mute of each kind that was last asked: by its publication, or by a mute that the
transport took. -/
def askedAfter (w : Watched) (turn : Turn) (t : Answers) : MediaStreamKind → Bool :=
  match turn with
  | .message (.localPublished kind muted _) => Function.update w.asked kind muted
  | .message (.setLocalMuted kind muted) =>
      if t.mute && (w.actor.localTracks.lookup kind).isSome then
        Function.update w.asked kind muted
      else w.asked
  | _ => w.asked

/-- The transport once it has what a turn publishes. -/
def publishedBy (u : Uplink) (turn : Turn) : Uplink :=
  match publication turn with
  | some new => u.publish new.1 new.2.1 new.2.2
  | none => u

/-- A turn; what it tells the transport is heard in its order. -/
def step (ours : List String) (w : Watched) (input : Turn × Answers) : Option Watched :=
  if possible ours w input.1 then
    let actor := w.actor.turn input.1 input.2
    some
      { actor := actor
        asked := askedAfter w input.1 input.2
        uplink := (actor.muteCalls.drop w.actor.muteCalls.length).foldl Uplink.tell
          (publishedBy w.uplink input.1) }
  else none

/-- The streams are those of the kinds, each once and with the mute asked of it. -/
structure Shows (kinds : MediaStreamKind → Prop) (asked : MediaStreamKind → Bool)
    (streams : List StreamState) : Prop where
  nodup : (streams.map (·.kind)).Nodup
  mem : ∀ stream, stream ∈ streams ↔ kinds stream.kind ∧ stream.muted = asked stream.kind

/-- Our entry shows what the user did, and the transport has it, or the pause of the lapse. -/
structure Right (w : Watched) : Prop where
  entry : ∀ streams ∈ streamsOf w.actor.participants w.actor.ownMemberId,
    Shows (· ∈ w.actor.localTracks) w.asked streams
  transport : w.actor.ended = false → ∀ kind, ∀ publication ∈ w.actor.localTracks.lookup kind,
    w.uplink.refused publication.track = false →
      w.uplink.muted publication.track =
        (w.asked kind || (w.actor.coreLapsed || w.actor.observedLapse))

/-- Our entry has a stream of the kind. -/
def entryHas (a : Actor) (kind : MediaStreamKind) : Bool :=
  (streamsOf a.roster a.ownMemberId).any (Actor.hasStream · kind)

/-- Where our entry has the kind, what comes in of it is the mute that was last asked. -/
def Agrees (w : Watched) (input : Turn × Answers) : Prop :=
  (∀ word ∈ muteWord input.1,
    w.actor.pool.isCurrent word.connectionKey word.generation = true →
      w.actor.pool.identityMap.lookup word.identity = some w.actor.ownMemberId →
        entryHas w.actor word.kind = true → w.asked word.kind = word.muted) ∧
  ∀ new ∈ publication input.1, entryHas w.actor new.1 = true → w.asked new.1 = new.2.1

instance (w : Watched) (input : Turn × Answers) : Decidable (Agrees w input) :=
  inferInstanceAs (Decidable (_ ∧ _))

section
variable {a b c : Actor} {ours : List String} {kind : MediaStreamKind}

/-- An operation that leaves our publications alone, and brings no media of ours. -/
structure Spares (ours : List String) (a b : Actor) : Prop where
  ownMemberId : b.ownMemberId = a.ownMemberId
  localTracks : b.localTracks = a.localTracks
  muteCalls : b.muteCalls = a.muteCalls
  pool : Attributed a.pool → Unbrought a.ownMemberId ours a.pool →
    Attributed b.pool ∧ Unbrought a.ownMemberId ours b.pool

/-- It leaves our entry alone too. -/
structure Unmoved (ours : List String) (a b : Actor) : Prop extends Spares ours a b where
  streams : streamsOf b.roster a.ownMemberId = streamsOf a.roster a.ownMemberId

namespace Spares

theorem trans (first : Spares ours a b) (second : Spares ours b c) : Spares ours a c where
  ownMemberId := second.ownMemberId.trans first.ownMemberId
  localTracks := second.localTracks.trans first.localTracks
  muteCalls := second.muteCalls.trans first.muteCalls
  pool attributed unbrought := by
    obtain ⟨attributed', unbrought'⟩ := first.pool attributed unbrought
    rw [← first.ownMemberId] at unbrought' ⊢
    exact second.pool attributed' unbrought'

theorem of_same (ownMemberId : b.ownMemberId = a.ownMemberId)
    (localTracks : b.localTracks = a.localTracks) (muteCalls : b.muteCalls = a.muteCalls)
    (pool : b.pool = a.pool) : Spares ours a b where
  ownMemberId := ownMemberId
  localTracks := localTracks
  muteCalls := muteCalls
  pool attributed unbrought := by
    rw [pool]
    exact ⟨attributed, unbrought⟩

theorem of_restreams {memberId : String} {change : List StreamState → List StreamState}
    (h : Restreams a b memberId change) : Spares ours a b :=
  .of_same ((congrArg Actor.ownMemberId h.rest).trans rfl)
    ((congrArg Actor.localTracks h.rest).trans rfl)
    ((congrArg Actor.muteCalls h.rest).trans rfl) ((congrArg Actor.pool h.rest).trans rfl)

end Spares

namespace Unmoved

theorem refl (a : Actor) : Unmoved ours a a := ⟨.of_same rfl rfl rfl rfl, rfl⟩

theorem trans (first : Unmoved ours a b) (second : Unmoved ours b c) : Unmoved ours a c where
  toSpares := first.toSpares.trans second.toSpares
  streams := by
    rw [← first.streams, ← first.ownMemberId]
    exact second.streams

theorem of_same (ownMemberId : b.ownMemberId = a.ownMemberId)
    (localTracks : b.localTracks = a.localTracks) (muteCalls : b.muteCalls = a.muteCalls)
    (pool : b.pool = a.pool) (roster : b.roster = a.roster) : Unmoved ours a b :=
  ⟨.of_same ownMemberId localTracks muteCalls pool, by rw [roster]⟩

theorem foldl {α : Type} {f : Actor → α → Actor} (each : ∀ a x, Unmoved ours a (f a x))
    (xs : List α) (a : Actor) : Unmoved ours a (xs.foldl f a) := by
  induction xs generalizing a with
  | nil => exact refl a
  | cons x rest ih => exact (each a x).trans (ih (f a x))

theorem of_restreams {memberId : String} {change : List StreamState → List StreamState}
    (h : Restreams a b memberId change) (other : memberId ≠ a.ownMemberId) : Unmoved ours a b :=
  ⟨.of_restreams h, (h.streams a.ownMemberId).trans (if_neg other.symm)⟩

theorem callPool {call : Call} (t : Answers)
    (promised : Promised a.ownMemberId ours a.pool.transports call) :
    Unmoved ours a (a.callPool call t).1 where
  ownMemberId := rfl
  localTracks := rfl
  muteCalls := rfl
  streams := rfl
  pool attributed unbrought :=
    ⟨(attributed.perform _).take,
      (@unbrought_perform _ _ _ unbrought attributed ⟨call, t.now, t.takeOver⟩
        promised).1.of_same rfl rfl rfl⟩

theorem end_ (a : Actor) (t : Answers) : Unmoved ours a (a.end_ t) := by
  unfold Actor.end_
  split_ifs
  · exact refl a
  · exact Unmoved.trans (b := { a with ended := true }) (of_same rfl rfl rfl rfl rfl)
      (callPool t trivial)

theorem setConstraints (a : Actor) (memberId : String) (undecryptable : Bool) (t : Answers)
    (stream : MediaStreamKind × MediaConstraints) :
    Unmoved ours a (a.pushConstraints memberId undecryptable t stream) :=
  @callPool a ours (.setConstraints memberId stream.1 _) t trivial

theorem encryptionStateChanged (a : Actor) (memberId : String) (state : FrameEncryptionState)
    (t : Answers) : Unmoved ours a (a.encryptionStateChanged memberId state t) := by
  unfold Actor.encryptionStateChanged
  extract_lets crossed noted pushed
  have first : Unmoved ours a noted := of_same rfl rfl rfl rfl rfl
  have second : Unmoved ours noted pushed := by
    unfold pushed
    split_ifs
    · exact foldl (fun b stream => setConstraints b memberId _ t stream) _ noted
    · exact refl noted
  exact (first.trans second).trans (of_same rfl rfl rfl rfl rfl)

/-- An event of the pool that is not about our streams. -/
theorem applyPoolEvent (t : Answers) {event : PoolEvent}
    (other : streamMember event ≠ some a.ownMemberId) :
    Unmoved ours a (a.applyPoolEvent t event) := by
  have differs {memberId : String} (is_member : streamMember event = some memberId) :
      memberId ≠ a.ownMemberId := by
    rintro rfl
    exact other is_member
  cases event with
  | streamAdded memberId kind =>
      exact of_restreams (restreams_addStream a memberId kind) (differs rfl)
  | streamRemoved memberId kind =>
      exact of_restreams (restreams_removeStream a memberId kind) (differs rfl)
  | streamMuted memberId kind muted =>
      exact of_restreams (restreams_setMemberMuted a memberId kind muted) (differs rfl)
  | encryptionStateChanged memberId state => exact encryptionStateChanged a memberId state t
  | ownConnectionLost reason message => exact end_ a t
  | _ => exact of_same rfl rfl rfl rfl rfl

theorem applyPoolEvents (t : Answers) {events : List PoolEvent}
    (other : ∀ event ∈ events, streamMember event ≠ some a.ownMemberId) :
    Unmoved ours a (a.applyPoolEvents t events) := by
  unfold Actor.applyPoolEvents
  induction events generalizing a with
  | nil => exact refl a
  | cons event rest ih =>
      have first : Unmoved ours a (a.applyPoolEvent t event) :=
        applyPoolEvent t (other event (.head _))
      refine first.trans (ih fun later there => ?_)
      rw [first.ownMemberId]
      exact other later (.tail _ there)

theorem throughPool {call : Call} (t : Answers) (attributed : Attributed a.pool)
    (taken : a.pool.out = []) (unbrought : Unbrought a.ownMemberId ours a.pool)
    (promised : Promised a.ownMemberId ours a.pool.transports call)
    (quiet : tellsMute call = false) : Unmoved ours a (a.throughPool call t) := by
  obtain ⟨events, out, other⟩ := (@unbrought_perform _ _ _ unbrought attributed
    ⟨call, t.now, t.takeOver⟩ promised).2 quiet
  rw [taken, List.nil_append] at out
  have called : Unmoved ours a (a.callPool call t).1 := callPool t promised
  refine called.trans (applyPoolEvents t fun event there => ?_)
  rw [called.ownMemberId]
  exact other event (out ▸ there)

end Unmoved

namespace Shows

variable {kinds : MediaStreamKind → Prop} {asked : MediaStreamKind → Bool}
variable {streams : List StreamState} {muted : Bool}

theorem has_iff (h : Shows kinds asked streams) :
    Actor.hasStream streams kind = true ↔ kinds kind := by
  unfold Actor.hasStream
  rw [List.any_eq_true]
  constructor
  · rintro ⟨stream, at_, is_kind⟩
    rw [← beq_iff_eq.mp is_kind]
    exact ((h.mem stream).mp at_).1
  · intro has
    exact ⟨⟨kind, asked kind⟩, (h.mem _).mpr ⟨has, rfl⟩, beq_iff_eq.mpr rfl⟩

theorem update_iff (h : Shows kinds asked streams) :
    Shows kinds (Function.update asked kind muted) streams ↔
      (kinds kind → asked kind = muted) := by
  constructor
  · intro later has
    have shown : (⟨kind, asked kind⟩ : StreamState) ∈ streams := (h.mem _).mpr ⟨has, rfl⟩
    have is_muted := ((later.mem _).mp shown).2
    rwa [Function.update_self] at is_muted
  · intro same
    refine ⟨h.nodup, fun stream => (h.mem stream).trans (and_congr_right fun has => ?_)⟩
    by_cases is_kind : stream.kind = kind
    · rw [is_kind, Function.update_self, same (is_kind ▸ has)]
    · rw [Function.update_of_ne is_kind]

theorem congr {kinds' : MediaStreamKind → Prop} (h : Shows kinds asked streams)
    (same : ∀ kind, kinds' kind ↔ kinds kind) : Shows kinds' asked streams :=
  ⟨h.nodup, fun stream => (h.mem stream).trans (and_congr_left' (same stream.kind).symm)⟩

/-- `set_member_muted` of what was asked. -/
theorem remuted (h : Shows kinds asked streams) (kind : MediaStreamKind) (muted : Bool) :
    Shows kinds (Function.update asked kind muted) (remuted kind muted streams) := by
  unfold EngineStreams.remuted
  cases found : streams.find? (·.kind == kind) with
  | none =>
      refine h.update_iff.mpr fun has => absurd (h.has_iff.mpr has) ?_
      rw [Actor.hasStream, List.any_eq_true]
      rintro ⟨stream, at_, is_kind⟩
      exact List.find?_eq_none.mp found stream at_ is_kind
  | some stream =>
      have is_kind : stream.kind = kind := by simpa using List.find?_some found
      have shown := (h.mem stream).mp (List.mem_of_find?_eq_some found)
      rw [is_kind] at shown
      dsimp only
      split_ifs with already
      · exact h.update_iff.mpr fun _ => shown.2.symm.trans already
      · refine ⟨?_, fun other => ?_⟩
        · have kinds_ : (withMute kind muted streams).map (·.kind) = streams.map (·.kind) := by
            unfold withMute
            rw [List.map_map]
            refine List.map_congr_left fun other _ => ?_
            rw [Function.comp_apply]
            split_ifs with is_changed
            · exact is_changed.symm
            · rfl
          rw [kinds_]
          exact h.nodup
        · unfold withMute
          rw [List.mem_map]
          by_cases of_kind : other.kind = kind
          · rw [of_kind, Function.update_self, and_iff_right shown.1]
            constructor
            · rintro ⟨former, -, rfl⟩
              split_ifs at of_kind ⊢ with is_changed
              · rfl
              · exact absurd of_kind is_changed
            · intro is_muted
              refine ⟨stream, List.mem_of_find?_eq_some found, ?_⟩
              rw [if_pos is_kind, ← of_kind, ← is_muted]
          · rw [Function.update_of_ne of_kind, ← h.mem]
            constructor
            · rintro ⟨former, at_, rfl⟩
              split_ifs at of_kind ⊢ with is_changed
              · exact absurd rfl of_kind
              · exact at_
            · intro at_
              exact ⟨other, at_, if_neg of_kind⟩

theorem remuted_iff (h : Shows kinds asked streams) :
    Shows kinds asked (EngineStreams.remuted kind muted streams) ↔
      (kinds kind → asked kind = muted) := by
  have back : Shows kinds _ _ ↔ _ := @update_iff kind _ _ _ (asked kind) (h.remuted kind muted)
  rw [Function.update_idem, Function.update_eq_self, Function.update_self] at back
  exact back.trans (forall_congr' fun _ => eq_comm)

/-- A stream of a new kind. -/
theorem append (h : Shows kinds asked streams) (new : ¬ kinds kind) (muted : Bool) :
    Shows (fun other => other = kind ∨ kinds other) (Function.update asked kind muted)
      (streams ++ [⟨kind, muted⟩]) where
  nodup := by
    rw [List.map_append, List.map_singleton]
    refine List.nodup_append'.mpr ⟨h.nodup, List.nodup_singleton _, ?_⟩
    refine List.disjoint_singleton.mpr fun there => ?_
    obtain ⟨stream, at_, is_kind⟩ := List.mem_map.mp there
    have has := ((h.mem stream).mp at_).1
    rw [is_kind] at has
    exact new has
  mem stream := by
    rw [List.mem_append, List.mem_singleton, h.mem]
    by_cases is_kind : stream.kind = kind
    · rw [is_kind, Function.update_self]
      constructor
      · rintro (⟨has, -⟩ | rfl)
        · exact absurd has new
        · exact ⟨.inl rfl, rfl⟩
      · rintro ⟨-, is_muted⟩
        right
        rw [← is_kind, ← is_muted]
    · rw [Function.update_of_ne is_kind, or_iff_left fun same => is_kind (by rw [same])]
      rw [or_iff_right is_kind]

theorem removed (h : Shows kinds asked streams) (kind : MediaStreamKind) :
    Shows (fun other => other ≠ kind ∧ kinds other) asked
      (EngineStreams.removed kind streams) where
  nodup := h.nodup.sublist (List.filter_sublist.map _)
  mem stream := by
    rw [EngineStreams.removed, List.mem_filter, h.mem, bne_iff_ne, and_comm, and_assoc]

end Shows

section
variable {u : Uplink} {calls : List MuteCall} {track : ℕ}

theorem muted_tell (u : Uplink) (call : MuteCall) :
    (u.tell call).muted =
      if call.taken then Function.update u.muted call.track call.muted else u.muted := by
  unfold Uplink.tell
  split_ifs <;> rfl

theorem refused_tell (u : Uplink) (call : MuteCall) :
    (u.tell call).refused = Function.update u.refused call.track !call.taken := by
  unfold Uplink.tell
  cases call.taken <;> rfl

theorem tracks_tell (u : Uplink) (call : MuteCall) : (u.tell call).tracks = u.tracks := by
  unfold Uplink.tell
  split_ifs <;> rfl

theorem tracks_tellAll (calls : List MuteCall) (u : Uplink) :
    (calls.foldl Uplink.tell u).tracks = u.tracks := by
  induction calls generalizing u with
  | nil => rfl
  | cons call rest ih => rw [List.foldl_cons, ih, tracks_tell]

theorem tellAll_other (h : track ∉ calls.map (·.track)) :
    (calls.foldl Uplink.tell u).muted track = u.muted track ∧
      (calls.foldl Uplink.tell u).refused track = u.refused track := by
  induction calls generalizing u with
  | nil => exact ⟨rfl, rfl⟩
  | cons call rest ih =>
      rw [List.map_cons, List.mem_cons, not_or] at h
      obtain ⟨muted, refused⟩ := @ih (u.tell call) h.2
      rw [List.foldl_cons, muted, refused, refused_tell, muted_tell]
      refine ⟨?_, Function.update_of_ne h.1 _ _⟩
      split_ifs
      · exact Function.update_of_ne h.1 _ _
      · rfl

/-- Each track is told of once. -/
theorem tellAll_spec (distinct : (calls.map (·.track)).Nodup) {call : MuteCall}
    (there : call ∈ calls) :
    (calls.foldl Uplink.tell u).muted call.track =
        (if call.taken then call.muted else u.muted call.track) ∧
      (calls.foldl Uplink.tell u).refused call.track = !call.taken := by
  induction calls generalizing u with
  | nil => cases there
  | cons first rest ih =>
      rw [List.map_cons, List.nodup_cons] at distinct
      rw [List.foldl_cons]
      obtain rfl | later := List.mem_cons.mp there
      · obtain ⟨muted, refused⟩ := @tellAll_other (u.tell call) rest _ distinct.1
        rw [muted, refused, refused_tell, muted_tell]
        refine ⟨?_, Function.update_self ..⟩
        split_ifs
        · exact Function.update_self ..
        · rfl
      · have differs : call.track ≠ first.track := by
          intro same
          exact distinct.1 (same ▸ List.mem_map_of_mem later)
        obtain ⟨muted, refused⟩ := @ih (u.tell first) distinct.2 later
        obtain ⟨before, -⟩ := @tellAll_other u [first] call.track (by simpa using differs)
        rw [List.foldl_cons, List.foldl_nil] at before
        rw [muted, refused, before]
        exact ⟨rfl, rfl⟩

end

/-- The record of each publication says what was asked and what the transport has. -/
structure Records (localTracks : Table MediaStreamKind LocalPublication)
    (asked : MediaStreamKind → Bool) (u : Uplink) : Prop where
  nodup : (u.tracks.map (·.1)).Nodup
  known : ∀ kind, ∀ publication ∈ localTracks.lookup kind, (publication.track, kind) ∈ u.tracks
  asked : ∀ kind, ∀ publication ∈ localTracks.lookup kind, publication.muted = asked kind
  carried : ∀ kind, ∀ publication ∈ localTracks.lookup kind,
    publication.appliedMuted = u.muted publication.track

namespace Records

variable {asked : MediaStreamKind → Bool} {u : Uplink}
variable {localTracks : Table MediaStreamKind LocalPublication}

theorem eq_of_track (h : Records localTracks asked u) {other : MediaStreamKind}
    {publication publication' : LocalPublication} (at_ : publication ∈ localTracks.lookup kind)
    (at_' : publication' ∈ localTracks.lookup other)
    (same : publication.track = publication'.track) : kind = other :=
  congrArg Prod.snd (List.inj_on_of_nodup_map h.nodup (h.known kind _ at_) (h.known other _ at_')
    same)

/-- A publication has a track of its own. -/
theorem publish (h : Records localTracks asked u) {track : ℕ}
    (fresh : track ∉ u.tracks.map (·.1)) (kind : MediaStreamKind) (muted : Bool) :
    Records (localTracks.insert kind ⟨track, muted, muted⟩) (Function.update asked kind muted)
      (u.publish kind muted track) where
  nodup := List.nodup_cons.mpr ⟨fresh, h.nodup⟩
  known other publication is_ := by
    obtain ⟨rfl, rfl⟩ | ⟨-, before⟩ := of_lookup_insert is_
    · exact .head _
    · exact .tail _ (h.known other publication before)
  asked other publication is_ := by
    obtain ⟨rfl, rfl⟩ | ⟨differs, before⟩ := of_lookup_insert is_
    · rw [Function.update_self]
    · rw [Function.update_of_ne differs]
      exact h.asked other publication before
  carried other publication is_ := by
    change _ = Function.update u.muted track muted publication.track
    obtain ⟨rfl, rfl⟩ | ⟨-, before⟩ := of_lookup_insert is_
    · rw [Function.update_self]
    · have differs : publication.track ≠ track := by
        rintro rfl
        exact fresh (List.mem_map_of_mem (h.known other publication before))
      rw [Function.update_of_ne differs]
      exact h.carried other publication before

theorem erase (h : Records localTracks asked u) (kind : MediaStreamKind) :
    Records (localTracks.erase kind) asked u where
  nodup := h.nodup
  known other publication is_ := h.known other publication (of_lookup_erase is_).2
  asked other publication is_ := h.asked other publication (of_lookup_erase is_).2
  carried other publication is_ := h.carried other publication (of_lookup_erase is_).2

/-- The transport takes a mute of a kind. -/
theorem mute (h : Records localTracks asked u) {publication : LocalPublication}
    (at_ : localTracks.lookup kind = some publication) (muted told : Bool) :
    Records (localTracks.insert kind ⟨publication.track, muted, told⟩)
      (Function.update asked kind muted) (u.tell ⟨publication.track, told, true⟩) where
  nodup := by
    rw [tracks_tell]
    exact h.nodup
  known other publication' is_ := by
    rw [tracks_tell]
    obtain ⟨rfl, rfl⟩ | ⟨-, before⟩ := of_lookup_insert is_
    · exact h.known other publication at_
    · exact h.known other publication' before
  asked other publication' is_ := by
    obtain ⟨rfl, rfl⟩ | ⟨differs, before⟩ := of_lookup_insert is_
    · rw [Function.update_self]
    · rw [Function.update_of_ne differs]
      exact h.asked other publication' before
  carried other publication' is_ := by
    rw [muted_tell, if_pos rfl]
    dsimp only
    obtain ⟨rfl, rfl⟩ | ⟨differs, before⟩ := of_lookup_insert is_
    · rw [Function.update_self]
    · have tracks : publication'.track ≠ publication.track := fun same =>
        differs (h.eq_of_track before at_ same)
      rw [Function.update_of_ne tracks]
      exact h.carried other publication' before

theorem refuse (h : Records localTracks asked u) (track : ℕ) (told : Bool) :
    Records localTracks asked (u.tell ⟨track, told, false⟩) := ⟨h.nodup, h.known, h.asked, h.carried⟩

theorem of_pauseCall {t : Answers} {publication : LocalPublication} {call : MuteCall}
    (h : a.pauseCall t kind publication = some call) :
    publication.appliedMuted ≠ (publication.muted || a.lapsed) ∧
      call = ⟨publication.track, publication.muted || a.lapsed, t.pause kind⟩ := by
  unfold Actor.pauseCall at h
  dsimp only at h
  split_ifs at h with same
  exact ⟨same, (Option.some.inj h).symm⟩

/-- The pause tells of each track once. -/
theorem nodup_calls (h : Records a.localTracks asked u) (t : Answers) :
    ((a.localTracks.entries.filterMap fun e => a.pauseCall t e.1 e.2).map (·.track)).Nodup := by
  have tracks : (a.localTracks.entries.map (·.2.track)).Nodup := by
    refine List.Nodup.map_on (fun e at_ e' at_' same => ?_) a.localTracks.nodupKeys.nodup
    exact a.localTracks.nodupKeys.eq_of_fst_eq at_ at_'
      (h.eq_of_track (lookup_eq_some_iff.mpr at_) (lookup_eq_some_iff.mpr at_') same)
  refine tracks.sublist ?_
  generalize a.localTracks.entries = entries
  induction entries with
  | nil => exact .slnil
  | cons e rest ih =>
      rw [List.filterMap_cons]
      cases told : a.pauseCall t e.1 e.2 with
      | none => exact ih.cons _
      | some call =>
          rw [List.map_cons, List.map_cons, (of_pauseCall told).2]
          exact ih.cons_cons _

/-- The pause: what the transport takes is recorded, and each publication is as asked, or as
the lapse has it, unless its mute was refused. -/
theorem applyPause (h : Records a.localTracks asked u) (t : Answers) :
    ∃ calls, (a.applyPause t).muteCalls = a.muteCalls ++ calls ∧
      Records (a.applyPause t).localTracks asked (calls.foldl Uplink.tell u) ∧
      ∀ kind, ∀ publication ∈ (a.applyPause t).localTracks.lookup kind,
        (calls.foldl Uplink.tell u).refused publication.track = false →
          (calls.foldl Uplink.tell u).muted publication.track = (asked kind || a.lapsed) := by
  let calls := a.localTracks.entries.filterMap fun e => a.pauseCall t e.1 e.2
  have distinct := h.nodup_calls t
  -- what has come of the publication of a kind
  have each {kind : MediaStreamKind} {publication : LocalPublication}
      (is_ : publication ∈ (a.applyPause t).localTracks.lookup kind) :
      ∃ former ∈ a.localTracks.lookup kind, publication.track = former.track ∧
        publication.muted = former.muted ∧
        publication.appliedMuted = (calls.foldl Uplink.tell u).muted publication.track ∧
        ((calls.foldl Uplink.tell u).refused publication.track = false →
          publication.appliedMuted = (former.muted || a.lapsed)) := by
    rw [show (a.applyPause t).localTracks = mapValues a.localTracks (a.paused t) from rfl,
      lookup_mapValues, Option.mem_def, Option.map_eq_some_iff] at is_
    obtain ⟨former, at_, rfl⟩ := is_
    refine ⟨former, at_, ?_⟩
    cases told : a.pauseCall t kind former with
    | none =>
        have same : former.appliedMuted = (former.muted || a.lapsed) := by
          by_contra differs
          rw [Actor.pauseCall, if_neg differs] at told
          cases told
        have stays : a.paused t kind former = former := if_pos same
        have untold : former.track ∉ calls.map (·.track) := by
          intro there
          obtain ⟨call, at_call, is_track⟩ := List.mem_map.mp there
          obtain ⟨e, at_e, is_call⟩ := List.mem_filterMap.mp at_call
          have is_kind := h.eq_of_track at_ (lookup_eq_some_iff.mpr at_e)
            (by rw [← is_track, (of_pauseCall is_call).2])
          subst is_kind
          obtain rfl : former = e.2 := Option.some.inj (at_.symm.trans
            (lookup_eq_some_iff.mpr at_e))
          cases told.symm.trans is_call
        rw [stays, (tellAll_other untold).1]
        exact ⟨rfl, rfl, h.carried kind former at_, fun _ => same⟩
    | some call =>
        obtain ⟨differs, rfl⟩ := of_pauseCall told
        obtain ⟨muted, refused⟩ := tellAll_spec (u := u) distinct
          (List.mem_filterMap.mpr ⟨⟨kind, former⟩, lookup_eq_some_iff.mp at_, told⟩)
        dsimp only at muted refused
        rw [Actor.paused, if_neg differs]
        cases taken : t.pause kind with
        | true =>
            rw [taken, if_pos rfl] at muted
            exact ⟨rfl, rfl, muted.symm, fun _ => rfl⟩
        | false =>
            rw [taken] at muted refused
            refine ⟨rfl, rfl, (h.carried kind former at_).trans muted.symm, fun not_refused => ?_⟩
            cases refused.symm.trans not_refused
  refine ⟨calls, rfl, ⟨?_, ?_, ?_, ?_⟩, ?_⟩
  · rw [tracks_tellAll]
    exact h.nodup
  · intro kind publication is_
    obtain ⟨former, at_, track, -⟩ := each is_
    rw [tracks_tellAll, track]
    exact h.known kind former at_
  · intro kind publication is_
    obtain ⟨former, at_, -, muted, -⟩ := each is_
    exact muted.trans (h.asked kind former at_)
  · intro kind publication is_
    obtain ⟨-, -, -, -, carried, -⟩ := each is_
    exact carried
  · intro kind publication is_ not_refused
    obtain ⟨former, at_, -, -, carried, follows⟩ := each is_
    rw [← carried, follows not_refused, h.asked kind former at_]

end Records

/-- Our entry shows what was asked, where we have one. -/
def Entered (a : Actor) (asked : MediaStreamKind → Bool) : Prop :=
  ∀ streams ∈ streamsOf a.roster a.ownMemberId, Shows (· ∈ a.localTracks) asked streams

/-- What holds between turns. -/
structure Held (ours : List String) (w : Watched) : Prop where
  inv : RosterEvents.Inv w.actor
  unbrought : Unbrought w.actor.ownMemberId ours w.actor.pool
  records : Records w.actor.localTracks w.asked w.uplink

/-- What a turn makes of our own, before the pause. -/
structure Received (ours : List String) (w : Watched) (turn : Turn) (t : Answers) : Prop where
  ownMemberId : (w.actor.receive turn t).ownMemberId = w.actor.ownMemberId
  unbrought : Unbrought w.actor.ownMemberId ours (w.actor.receive turn t).pool
  records : ∃ calls, (w.actor.receive turn t).muteCalls = w.actor.muteCalls ++ calls ∧
    Records (w.actor.receive turn t).localTracks (askedAfter w turn t)
      (calls.foldl Uplink.tell (publishedBy w.uplink turn))
  entry : Entered w.actor w.asked →
    (Entered (w.actor.receive turn t) (askedAfter w turn t) ↔ Agrees w (turn, t))

section
variable {w : Watched} {asked : MediaStreamKind → Bool} {muted : Bool} {t : Answers}

theorem Entered.of_unmoved (h : Unmoved ours a b) (entered : Entered a asked) :
    Entered b asked := by
  unfold Entered
  rw [h.ownMemberId, h.streams, h.localTracks]
  exact entered

theorem entryHas_eq {streams : List StreamState}
    (found : streamsOf a.roster a.ownMemberId = some streams) :
    entryHas a kind = Actor.hasStream streams kind := by
  rw [entryHas, found, Option.any_some]

theorem entered_remuted_iff (entered : Entered a asked) (ownMemberId : b.ownMemberId = a.ownMemberId)
    (localTracks : b.localTracks = a.localTracks)
    (streams : streamsOf b.roster a.ownMemberId =
      (streamsOf a.roster a.ownMemberId).map (remuted kind muted)) :
    Entered b asked ↔ (entryHas a kind = true → asked kind = muted) := by
  unfold Entered
  rw [ownMemberId, localTracks, streams]
  cases found : streamsOf a.roster a.ownMemberId with
  | none => simp [entryHas, found]
  | some shown =>
      have shows_ := entered shown found
      rw [entryHas_eq found, shows_.has_iff, ← shows_.remuted_iff]
      simp

theorem agrees_of_none {turn : Turn} (word : muteWord turn = none)
    (new : publication turn = none) : Agrees w (turn, t) := by
  refine ⟨?_, ?_⟩
  · simp [word]
  · simp [new]

theorem Received.of_unmoved {turn : Turn} (held : Held ours w)
    (h : Unmoved ours w.actor (w.actor.receive turn t)) (asked : askedAfter w turn t = w.asked)
    (new : publication turn = none) (agrees : Agrees w (turn, t)) : Received ours w turn t where
  ownMemberId := h.ownMemberId
  unbrought := (h.pool held.inv.attributed held.unbrought).2
  records := by
    refine ⟨[], h.muteCalls.trans (List.append_nil _).symm, ?_⟩
    rw [h.localTracks, asked, publishedBy, new]
    exact held.records
  entry entered := by
    rw [asked]
    exact iff_of_true (entered.of_unmoved h) agrees

/-- A kind is published. -/
theorem entered_added_iff (entered : Entered a asked) {publication : LocalPublication}
    (ownMemberId : b.ownMemberId = a.ownMemberId)
    (localTracks : b.localTracks = a.localTracks.insert kind publication)
    (streams : streamsOf b.roster a.ownMemberId =
      (streamsOf a.roster a.ownMemberId).map (added kind muted)) :
    Entered b (Function.update asked kind muted) ↔
      (entryHas a kind = true → asked kind = muted) := by
  unfold Entered
  rw [ownMemberId, localTracks, streams]
  cases found : streamsOf a.roster a.ownMemberId with
  | none => simp [entryHas, found]
  | some shown =>
      have shows_ := entered shown found
      rw [Option.map_some, entryHas_eq found]
      simp only [Option.mem_def, Option.some.injEq, forall_eq', AList.mem_insert, added]
      split_ifs with has
      · have there := shows_.has_iff.mp has
        have same (other : MediaStreamKind) :
            other = kind ∨ other ∈ a.localTracks ↔ other ∈ a.localTracks := by
          refine or_iff_right_of_imp fun is_kind => ?_
          rw [is_kind]
          exact there
        simp only [same]
        rw [shows_.update_iff, has, imp_iff_right rfl, imp_iff_right there]
      · have new : kind ∉ a.localTracks := fun there => has (shows_.has_iff.mpr there)
        exact iff_of_true (shows_.append new muted) fun has_ => absurd has_ has

theorem Entered.removed (entered : Entered a asked) (ownMemberId : b.ownMemberId = a.ownMemberId)
    (localTracks : b.localTracks = a.localTracks.erase kind)
    (streams : streamsOf b.roster a.ownMemberId =
      (streamsOf a.roster a.ownMemberId).map (removed kind)) : Entered b asked := by
  unfold Entered
  rw [ownMemberId, localTracks, streams]
  intro shown is_
  obtain ⟨former, found, rfl⟩ := Option.map_eq_some_iff.mp is_
  simp only [AList.mem_erase]
  exact (entered former found).removed kind

theorem Entered.remuted (entered : Entered a asked) {publication : LocalPublication}
    (there : kind ∈ a.localTracks) (ownMemberId : b.ownMemberId = a.ownMemberId)
    (localTracks : b.localTracks = a.localTracks.insert kind publication)
    (streams : streamsOf b.roster a.ownMemberId =
      (streamsOf a.roster a.ownMemberId).map (remuted kind muted)) :
    Entered b (Function.update asked kind muted) := by
  unfold Entered
  rw [ownMemberId, localTracks, streams]
  intro shown is_
  obtain ⟨former, found, rfl⟩ := Option.map_eq_some_iff.mp is_
  refine ((entered former found).remuted kind muted).congr fun other => ?_
  rw [AList.mem_insert]
  refine or_iff_right_of_imp fun is_kind => ?_
  rw [is_kind]
  exact there

theorem received_localPublished (held : Held ours w) {track : ℕ}
    (fresh : track ∉ w.uplink.tracks.map (·.1)) :
    Received ours w (.message (.localPublished kind muted track)) t := by
  let a := w.actor
  let published : Actor := { a with localTracks := a.localTracks.insert kind ⟨track, muted, muted⟩ }
  have h := restreams_addLocalStream published a.ownMemberId kind
  have spares : Spares ours published (published.addLocalStream a.ownMemberId kind) :=
    .of_restreams h
  have is_muted : publishedMute published kind = muted := by
    have found : published.localTracks.lookup kind = some ⟨track, muted, muted⟩ :=
      AList.lookup_insert _
    rw [publishedMute, found]
    rfl
  have streams := h.streams a.ownMemberId
  rw [if_pos rfl, is_muted] at streams
  refine
    { ownMemberId := spares.ownMemberId
      unbrought := (spares.pool held.inv.attributed held.unbrought).2
      records := ⟨[], spares.muteCalls.trans (List.append_nil _).symm, ?_⟩
      entry := fun entered => ?_ }
  · have records := held.records.publish fresh kind muted
    rw [← show _ = w.actor.localTracks.insert kind _ from spares.localTracks] at records
    exact records
  · refine (entered_added_iff entered spares.ownMemberId spares.localTracks streams).trans ?_
    simp [Agrees, muteWord, publication]

theorem received_localUnpublished (held : Held ours w) (track : ℕ) :
    Received ours w (.message (.localUnpublished kind track)) t := by
  by_cases current : (w.actor.localTracks.lookup kind).any (·.track == track) = true
  · have received : w.actor.receive (.message (.localUnpublished kind track)) t =
        Actor.removeStream { w.actor with localTracks := w.actor.localTracks.erase kind }
          w.actor.ownMemberId kind := if_pos current
    have h := restreams_removeStream
      { w.actor with localTracks := w.actor.localTracks.erase kind } w.actor.ownMemberId kind
    rw [← received] at h
    have spares : Spares ours _ (w.actor.receive (.message (.localUnpublished kind track)) t) :=
      .of_restreams h
    have streams := h.streams w.actor.ownMemberId
    rw [if_pos rfl] at streams
    refine
      { ownMemberId := spares.ownMemberId
        unbrought := (spares.pool held.inv.attributed held.unbrought).2
        records := ⟨[], spares.muteCalls.trans (List.append_nil _).symm, ?_⟩
        entry := fun entered => ?_ }
    · rw [spares.localTracks]
      exact held.records.erase kind
    · exact iff_of_true (entered.removed spares.ownMemberId spares.localTracks streams)
        (agrees_of_none rfl rfl)
  · have received : w.actor.receive (.message (.localUnpublished kind track)) t = w.actor :=
      if_neg current
    refine .of_unmoved held ?_ rfl rfl (agrees_of_none rfl rfl)
    rw [received]
    exact .refl _

theorem setLocalMuted_refused {publication : LocalPublication}
    (found : a.localTracks.lookup kind = some publication) (refused : t.mute = false) :
    a.setLocalMuted kind muted t =
      { a with muteCalls := a.muteCalls ++ [⟨publication.track, muted || a.lapsed, false⟩] } := by
  rw [Actor.setLocalMuted, found]
  simp [refused]

theorem setLocalMuted_taken {publication : LocalPublication}
    (found : a.localTracks.lookup kind = some publication) (taken : t.mute = true) :
    a.setLocalMuted kind muted t =
      Actor.setMemberMuted
        { a with
          muteCalls := a.muteCalls ++ [⟨publication.track, muted || a.lapsed, true⟩]
          localTracks :=
            a.localTracks.insert kind ⟨publication.track, muted, muted || a.lapsed⟩ }
        a.ownMemberId kind muted := by
  rw [Actor.setLocalMuted, found]
  simp [taken]

theorem received_setLocalMuted (held : Held ours w) :
    Received ours w (.message (.setLocalMuted kind muted)) t := by
  have agrees : Agrees w (.message (.setLocalMuted kind muted), t) := agrees_of_none rfl rfl
  cases found : w.actor.localTracks.lookup kind with
  | none =>
      have received : w.actor.receive (.message (.setLocalMuted kind muted)) t = w.actor := by
        change w.actor.setLocalMuted kind muted t = w.actor
        rw [Actor.setLocalMuted, found]
      have asked : askedAfter w (.message (.setLocalMuted kind muted)) t = w.asked := by
        simp [askedAfter, found]
      refine .of_unmoved held ?_ asked rfl agrees
      rw [received]
      exact .refl _
  | some publication_ =>
      cases taken : t.mute with
      | false =>
          have asked : askedAfter w (.message (.setLocalMuted kind muted)) t = w.asked := by
            simp [askedAfter, taken]
          have received : w.actor.receive (.message (.setLocalMuted kind muted)) t = _ :=
            setLocalMuted_refused found taken
          refine
            { ownMemberId := by rw [received]
              unbrought := by
                rw [received]
                exact held.unbrought
              records := ⟨[⟨publication_.track, muted || w.actor.lapsed, false⟩], ?_, ?_⟩
              entry := fun entered => iff_of_true ?_ agrees }
          · rw [received]
          · rw [received, asked]
            exact held.records.refuse _ _
          · rw [received, asked]
            exact entered
      | true =>
          have asked : askedAfter w (.message (.setLocalMuted kind muted)) t =
              Function.update w.asked kind muted := by
            simp [askedAfter, taken, found]
          have received : w.actor.receive (.message (.setLocalMuted kind muted)) t = _ :=
            setLocalMuted_taken found taken
          have h := restreams_setMemberMuted
            { w.actor with
              muteCalls :=
                w.actor.muteCalls ++ [⟨publication_.track, muted || w.actor.lapsed, true⟩]
              localTracks := w.actor.localTracks.insert kind
                ⟨publication_.track, muted, muted || w.actor.lapsed⟩ }
            w.actor.ownMemberId kind muted
          rw [← received] at h
          have spares : Spares ours _ (w.actor.receive (.message (.setLocalMuted kind muted)) t) :=
            .of_restreams h
          have streams := h.streams w.actor.ownMemberId
          rw [if_pos rfl] at streams
          refine
            { ownMemberId := spares.ownMemberId
              unbrought := (spares.pool held.inv.attributed held.unbrought).2
              records := ⟨[⟨publication_.track, muted || w.actor.lapsed, true⟩],
                spares.muteCalls, ?_⟩
              entry := fun entered => iff_of_true ?_ agrees }
          · rw [spares.localTracks, asked]
            exact held.records.mute found muted _
          · rw [asked]
            have there : kind ∈ w.actor.localTracks :=
              AList.lookup_isSome.mp (Option.isSome_of_mem found)
            exact entered.remuted there spares.ownMemberId spares.localTracks streams

/-- What a turn's word of a mute has the pool tell the actor. -/
theorem out_word {message : Message} {word : MuteWord} (p : MediaPool)
    (is_word : muteWord (.pool message) = some word) (now : ℕ)
    (takeOver : Except TransportError Unit) :
    (p.perform ⟨.handle message, now, takeOver⟩).out =
      p.out ++ if p.isCurrent word.connectionKey word.generation then
        ((p.identityMap.lookup word.identity).map fun memberId =>
          PoolEvent.streamMuted memberId word.kind word.muted).toList
      else [] := by
  cases message with
  | connection key generation event =>
      cases event with
      | trackMuted identity kind =>
          cases is_word
          unfold MediaPool.perform MediaPool.handle
          dsimp only
          split_ifs
          · exact out_muted identity kind true
          · exact (List.append_nil _).symm
      | trackUnmuted identity kind =>
          cases is_word
          unfold MediaPool.perform MediaPool.handle
          dsimp only
          split_ifs
          · exact out_muted identity kind false
          · exact (List.append_nil _).symm
      | _ => cases is_word
  | _ => cases is_word

theorem received_word (held : Held ours w) {message : Message} {word : MuteWord}
    (is_word : muteWord (.pool message) = some word)
    (promised : Promised w.actor.ownMemberId ours w.actor.pool.transports (.handle message)) :
    Received ours w (.pool message) t := by
  have called : Unmoved ours w.actor (w.actor.callPool (.handle message) t).1 :=
    .callPool t promised
  have out := out_word w.actor.pool is_word t.now t.takeOver
  rw [held.inv.taken, List.nil_append] at out
  have received : w.actor.receive (.pool message) t =
      (w.actor.callPool (.handle message) t).1.applyPoolEvents t
        (w.actor.pool.perform ⟨.handle message, t.now, t.takeOver⟩).out := rfl
  have new : publication (.pool message) = none := rfl
  have agrees : Agrees w (.pool message, t) ↔
      (w.actor.pool.isCurrent word.connectionKey word.generation = true →
        w.actor.pool.identityMap.lookup word.identity = some w.actor.ownMemberId →
          entryHas w.actor word.kind = true → w.asked word.kind = word.muted) := by
    simp [Agrees, is_word, new]
  by_cases ours_ : w.actor.pool.isCurrent word.connectionKey word.generation = true ∧
      w.actor.pool.identityMap.lookup word.identity = some w.actor.ownMemberId
  · rw [if_pos ours_.1, ours_.2] at out
    rw [out] at received
    have h : Restreams (w.actor.callPool (.handle message) t).1
        (w.actor.receive (.pool message) t) w.actor.ownMemberId (remuted word.kind word.muted) := by
      rw [received]
      exact restreams_setMemberMuted _ _ _ _
    have spares : Spares ours w.actor (w.actor.receive (.pool message) t) :=
      called.toSpares.trans (.of_restreams h)
    have streams := h.streams w.actor.ownMemberId
    rw [if_pos rfl] at streams
    refine
      { ownMemberId := spares.ownMemberId
        unbrought := (spares.pool held.inv.attributed held.unbrought).2
        records := ⟨[], spares.muteCalls.trans (List.append_nil _).symm, ?_⟩
        entry := fun entered => ?_ }
    · rw [spares.localTracks]
      exact held.records
    · rw [agrees, imp_iff_right ours_.1, imp_iff_right ours_.2]
      exact entered_remuted_iff entered spares.ownMemberId spares.localTracks streams
  · refine .of_unmoved held ?_ rfl new (agrees.mpr fun current mapped =>
      absurd ⟨current, mapped⟩ ours_)
    rw [received, out]
    refine called.trans (.applyPoolEvents t fun event there => ?_)
    rw [called.ownMemberId]
    split_ifs at there with current
    · obtain ⟨memberId, mapped, rfl⟩ := Option.map_eq_some_iff.mp (Option.mem_toList.mp there)
      intro same
      exact ours_ ⟨current, mapped.trans same⟩
    · cases there

/-- An entry that is made anew has what is published. -/
theorem shows_ownPublishedStreams (records : Records a.localTracks asked u) :
    Shows (· ∈ a.localTracks) asked (a.ownPublishedStreams a.ownMemberId) := by
  have sorted : (a.ownPublishedStreams a.ownMemberId).Perm
      (a.localTracks.entries.map fun e => (⟨e.1, e.2.muted⟩ : StreamState)) := by
    rw [Actor.ownPublishedStreams, if_pos rfl]
    exact List.perm_insertionSort _ _
  refine ⟨?_, fun stream => ?_⟩
  · rw [(sorted.map _).nodup_iff, List.map_map]
    exact a.localTracks.nodupKeys
  · rw [sorted.mem_iff, List.mem_map]
    constructor
    · rintro ⟨e, at_, rfl⟩
      have found : a.localTracks.lookup e.1 = some e.2 := lookup_eq_some_iff.mpr at_
      exact ⟨AList.lookup_isSome.mp (Option.isSome_of_mem found), records.asked e.1 e.2 found⟩
    · rintro ⟨there, is_muted⟩
      obtain ⟨publication, found⟩ := Option.isSome_iff_exists.mp (AList.lookup_isSome.mpr there)
      refine ⟨⟨stream.kind, publication⟩, lookup_eq_some_iff.mp found, ?_⟩
      rw [records.asked stream.kind publication found, ← is_muted]

theorem muteCalls_reconcileRoster (a : Actor) (snapshot : List JoinedMembership) :
    (a.reconcileRoster snapshot).muteCalls = a.muteCalls := by
  have departures (announceFor : String → Option ℕ) (ps : List Participant) (b : Actor) :
      (ps.foldl (fun b p => b.removeMember p.memberId (announceFor p.memberId)) b).muteCalls =
        b.muteCalls := by
    induction ps generalizing b with
    | nil => rfl
    | cons p rest ih => exact ih _
  have arrivals (announceFor : String → Option ℕ) (b : Actor) :
      (b.addArrived snapshot announceFor).muteCalls = b.muteCalls := by
    unfold Actor.addArrived
    induction snapshot generalizing b with
    | nil => rfl
    | cons member rest ih =>
        rw [List.foldl_cons, ih]
        split_ifs <;> rfl
  unfold Actor.reconcileRoster
  extract_lets withUs arrived count announceFor b
  rw [arrivals]
  exact departures _ _ b

theorem received_snapshot (held : Held ours w) {snapshot : List JoinedMembership}
    (promised : Promised w.actor.ownMemberId ours w.actor.pool.transports
      (.applySnapshot snapshot)) :
    Received ours w (.memberships snapshot) t := by
  obtain ⟨announces, b, own, tracks, kept, arrived⟩ := reconcileRoster_spec w.actor snapshot
  have ownMemberId : (w.actor.reconcileRoster snapshot).ownMemberId = w.actor.ownMemberId :=
    announces.ownMemberId
  have localTracks : (w.actor.reconcileRoster snapshot).localTracks = w.actor.localTracks :=
    announces.localTracks
  have pool : (w.actor.reconcileRoster snapshot).pool = w.actor.pool := announces.pool
  have spares : Spares ours w.actor (w.actor.reconcileRoster snapshot) :=
    .of_same ownMemberId localTracks (muteCalls_reconcileRoster _ _) pool
  have through : Unmoved ours (w.actor.reconcileRoster snapshot)
      (w.actor.receive (.memberships snapshot) t) := by
    refine Unmoved.trans (b := (w.actor.reconcileRoster snapshot).throughPool
      (.applySnapshot snapshot) t) ?_ (.of_same rfl rfl rfl rfl rfl)
    refine .throughPool t ?_ ?_ ?_ ?_ rfl
    · rw [pool]
      exact held.inv.attributed
    · rw [pool]
      exact held.inv.taken
    · rw [pool, ownMemberId]
      exact held.unbrought
    · rw [pool, ownMemberId]
      exact promised
  have all := spares.trans through.toSpares
  refine
    { ownMemberId := all.ownMemberId
      unbrought := (all.pool held.inv.attributed held.unbrought).2
      records := ⟨[], all.muteCalls.trans (List.append_nil _).symm, ?_⟩
      entry := fun entered => iff_of_true ?_ (agrees_of_none rfl rfl) }
  · rw [all.localTracks]
    exact held.records
  · refine Entered.of_unmoved through ?_
    unfold Entered
    rw [ownMemberId, localTracks, arrived.streams, kept]
    intro streams is_
    by_cases named : Named snapshot w.actor.ownMemberId
    · rw [RosterEvents.streamsOf_stays named, if_pos named,
        ownPublishedStreams_congr own tracks] at is_
      obtain before | ⟨-, new⟩ := Option.or_eq_some_iff.mp is_
      · exact entered streams before
      · cases new
        exact shows_ownPublishedStreams held.records
    · -- without our membership we have no entry
      have gone : streamsOf (w.actor.roster.filter fun p =>
          (snapshot.map (·.memberId)).contains p.memberId) w.actor.ownMemberId = none := by
        refine streamsOf_eq_none.mpr fun there => named ?_
        obtain ⟨p, at_, same⟩ := List.mem_map.mp there
        rw [← same]
        exact named_iff.mpr (List.contains_iff_mem.mp (List.mem_filter.mp at_).2)
      rw [gone, if_neg named] at is_
      cases is_

theorem promised_of_possible {message : Message} (h : possible ours w (.pool message) = true) :
    Promised w.actor.ownMemberId ours w.actor.pool.transports (.handle message) := by
  unfold possible at h
  rw [Bool.and_eq_true, Bool.and_eq_true] at h
  cases message with
  | connection key generation event =>
      cases event with
      | trackAdded identity kind track =>
          have not_ours : identity ∉ ours := by simpa using h.1.1
          exact not_ours
      | _ => exact trivial
  | _ => exact trivial

theorem received_pool (held : Held ours w) {message : Message}
    (h : possible ours w (.pool message) = true) : Received ours w (.pool message) t := by
  have promised := promised_of_possible h
  cases is_word : muteWord (.pool message) with
  | some word => exact received_word held is_word promised
  | none =>
      have quiet : tellsMute (.handle message) = false := by
        cases message with
        | connection key generation event =>
            cases event with
            | trackMuted identity kind => cases is_word
            | trackUnmuted identity kind => cases is_word
            | _ => rfl
        | _ => rfl
      exact .of_unmoved held
        (.throughPool t held.inv.attributed held.inv.taken held.unbrought promised quiet) rfl rfl
        (agrees_of_none is_word rfl)

theorem received_turn (held : Held ours w) {turn : Turn} (h : possible ours w turn = true) :
    Received ours w turn t := by
  have plain {call : Call} (promised : Promised w.actor.ownMemberId ours w.actor.pool.transports
      call) (quiet : tellsMute call = false) : Unmoved ours w.actor (w.actor.throughPool call t) :=
    .throughPool t held.inv.attributed held.inv.taken held.unbrought promised quiet
  cases turn with
  | signalling reachable => exact .of_unmoved held (plain trivial rfl) rfl rfl (agrees_of_none rfl rfl)
  | lapsed coreLapsed =>
      exact .of_unmoved held (.of_same rfl rfl rfl rfl rfl) rfl rfl (agrees_of_none rfl rfl)
  | memberships snapshot =>
      refine received_snapshot held fun member at_ is_own identity is_identity => ?_
      unfold possible at h
      rw [Bool.and_eq_true, Bool.and_eq_true, List.all_eq_true] at h
      have named := h.1.1 member at_
      rw [is_own, bne_self_eq_false, Bool.false_or, Option.mem_def.mp is_identity,
        Option.all_some] at named
      exact List.contains_iff_mem.mp named
  | ended => exact .of_unmoved held (.end_ _ t) rfl rfl (agrees_of_none rfl rfl)
  | pool message => exact received_pool held h
  | message message =>
      cases message with
      | adoptConnection key connection =>
          exact .of_unmoved held (.callPool t trivial) rfl rfl (agrees_of_none rfl rfl)
      | connectOwn key connection =>
          exact .of_unmoved held (plain trivial rfl) rfl rfl (agrees_of_none rfl rfl)
      | keyImported identity keyIndex =>
          exact .of_unmoved held (plain trivial rfl) rfl rfl (agrees_of_none rfl rfl)
      | localPublished kind muted track =>
          refine received_localPublished held ?_
          simpa [possible, muteWord, publication] using h
      | localUnpublished kind track => exact received_localUnpublished held track
      | setLocalMuted kind muted => exact received_setLocalMuted held
      | setConstraints memberId kind constraints =>
          refine .of_unmoved held ?_ rfl rfl (agrees_of_none rfl rfl)
          exact Unmoved.trans (b := { w.actor with
            hostConstraints := w.actor.hostConstraints.insert (memberId, kind) constraints })
            (.of_same rfl rfl rfl rfl rfl) (.setConstraints _ memberId _ t (kind, constraints))
      | speakerTimer memberId generation =>
          refine .of_unmoved held ?_ rfl rfl (agrees_of_none rfl rfl)
          change Unmoved ours w.actor (w.actor.speakerTimer memberId generation)
          unfold Actor.speakerTimer
          split
          · exact .refl _
          · split
            · exact .of_same rfl rfl rfl rfl rfl
            · exact .refl _
      | shutdown => exact .of_unmoved held (.end_ _ t) rfl rfl (agrees_of_none rfl rfl)

theorem entered_applyPause : Entered (a.applyPause t) asked ↔ Entered a asked := by
  have same (kind : MediaStreamKind) : kind ∈ (a.applyPause t).localTracks ↔
      kind ∈ a.localTracks := by
    rw [← AList.lookup_isSome, ← AList.lookup_isSome]
    rw [show (a.applyPause t).localTracks = mapValues a.localTracks (a.paused t) from rfl,
      lookup_mapValues, Option.isSome_map]
  unfold Entered
  simp only [same]
  rfl

theorem right_iff (inv : RosterEvents.Inv w.actor) :
    Right w ↔ Entered w.actor w.asked ∧ (w.actor.ended = false → ∀ kind,
      ∀ publication ∈ w.actor.localTracks.lookup kind,
        w.uplink.refused publication.track = false →
          w.uplink.muted publication.track =
            (w.asked kind || (w.actor.coreLapsed || w.actor.observedLapse))) := by
  constructor
  · intro right
    refine ⟨?_, right.transport⟩
    unfold Entered
    rw [← inv.published]
    exact right.entry
  · rintro ⟨entered, transport⟩
    refine ⟨?_, transport⟩
    rw [inv.published]
    exact entered

/-- What a turn keeps, and what our entry shows after it. -/
theorem held_step {v : Watched} {input : Turn × Answers} (held : Held ours w)
    (h : step ours w input = some v) : Held ours v ∧ (Right w → (Right v ↔ Agrees w input)) := by
  obtain ⟨turn, t⟩ := input
  unfold step at h
  split_ifs at h with may
  cases h
  have received : Received ours w turn t := received_turn held may
  have inv := (RosterEvents.turned_turn held.inv turn t).inv
  obtain ⟨calls, are, records⟩ := received.records
  obtain ⟨later, are', records', follows⟩ := records.applyPause t
  have told : (w.actor.turn turn t).muteCalls.drop w.actor.muteCalls.length = calls ++ later := by
    rw [Actor.turn, are', are, List.append_assoc, List.drop_left]
  rw [← List.foldl_append, ← told] at records' follows
  refine ⟨⟨inv, ?_, records'⟩, fun right => ?_⟩
  · rw [show (w.actor.turn turn t).ownMemberId = _ from received.ownMemberId]
    exact received.unbrought
  · rw [right_iff inv, ← received.entry ((right_iff held.inv).mp right).1]
    refine (and_iff_left ?_).trans entered_applyPause
    intro live kind publication is_ not_refused
    have muted := follows kind publication is_ not_refused
    rw [Actor.lapsed, show (w.actor.receive turn t).ended = false from live, Bool.not_false,
      Bool.and_true] at muted
    exact muted

end

end

/-- Our own membership, and a session in which we are there with our microphone. -/
def aliceMember : JoinedMembership :=
  { bobNaming [jwtTransport "https://a.x"] with
    sender := "@alice:x", stickyKey := "alice", memberId := "alice-1" }

def onMicrophone : List (Turn × Answers) :=
  [(.message (.adoptConnection "https://a.x" 1), RosterMembers.unasked 0),
    (.memberships [aliceMember], RosterMembers.unasked 1),
    (.message (.localPublished .microphone false 7), RosterMembers.unasked 2)]

/-- The connection reports that our microphone is muted. -/
def microphoneMuted : Turn :=
  .pool (.connection "https://a.x" 1 (.trackMuted "@alice:x:DEVICE" .microphone))

end MatrixRtc.OwnStreams

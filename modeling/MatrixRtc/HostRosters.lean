import MatrixRtc.PoolMembers
import MatrixRtc.StepRuns

/-!
# The roster of a host

What a host shows of the members of a session: whoever a snapshot names, with the streams
that the pool told it of, whether they sent in the clear and how their frames decrypt. Our
own publications, which never arrive as events of the pool, are left out.
-/
namespace MatrixRtc.HostRosters
open MemberEvents MediaTransports Tables MediaPools PoolMoves PoolMembers

structure StreamState where
  kind : MediaStreamKind
  muted : Bool
deriving DecidableEq, Repr

/-- The participants by their member ids, and what is noted of them. -/
structure Roster where
  participants : Table String (List StreamState)
  sentInClear : List String
  encryptionStates : Table String FrameEncryptionState

/-- What a host shows of one member. -/
structure View where
  streams : List StreamState
  sentInClear : Bool
  encryption : Option FrameEncryptionState
deriving DecidableEq, Repr

namespace Roster

def empty : Roster := ⟨∅, [], ∅⟩

variable (r : Roster)

/-- The streams of a participant are changed, where it is one. -/
def updateStreams (memberId : String) (f : List StreamState → List StreamState) : Roster :=
  match r.participants.lookup memberId with
  | none => r
  | some streams => { r with participants := r.participants.insert memberId (f streams) }

/-- `add_stream`. -/
def addStream (memberId : String) (kind : MediaStreamKind) : Roster :=
  r.updateStreams memberId fun streams =>
    if streams.any (·.kind == kind) then streams else streams ++ [⟨kind, false⟩]

/-- `remove_stream`. -/
def removeStream (memberId : String) (kind : MediaStreamKind) : Roster :=
  r.updateStreams memberId fun streams => streams.filter (·.kind != kind)

/-- `set_member_muted`; a participant has one stream of a kind. -/
def setMemberMuted (memberId : String) (kind : MediaStreamKind) (muted : Bool) : Roster :=
  r.updateStreams memberId fun streams =>
    streams.map fun stream => if stream.kind = kind then ⟨kind, muted⟩ else stream

/-- One event of `apply_pool_events`. -/
def applyEvent (event : PoolEvent) : Roster :=
  match event with
  | .streamAdded memberId kind => r.addStream memberId kind
  | .streamRemoved memberId kind => r.removeStream memberId kind
  | .streamMuted memberId kind muted => r.setMemberMuted memberId kind muted
  | .encryptionStateChanged memberId state =>
      { r with encryptionStates := r.encryptionStates.insert memberId state }
  | .sentInClear memberId => { r with sentInClear := r.sentInClear.insert memberId }
  | _ => r

/-- `apply_pool_events`. -/
def applyPoolEvents (events : List PoolEvent) : Roster := events.foldl applyEvent r

/-- `remove_member`. -/
def removeMember (memberId : String) : Roster :=
  { participants := r.participants.erase memberId
    sentInClear := r.sentInClear.filter (· != memberId)
    encryptionStates := r.encryptionStates.erase memberId }

/-- `add_member`, of a member that is not on the roster. -/
def addMember (member : JoinedMembership) : Roster :=
  if member.memberId ∈ r.participants then r
  else { r with participants := r.participants.insert member.memberId [] }

/-- The roster becomes the members of the snapshot: departures come first. -/
def applySnapshot (snapshot : List JoinedMembership) : Roster :=
  let departed := r.participants.keys.filter fun memberId => memberId ∉ snapshot.map (·.memberId)
  snapshot.foldl addMember (departed.foldl removeMember r)

def view (memberId : String) : Option View :=
  (r.participants.lookup memberId).map fun streams =>
    { streams := streams
      sentInClear := r.sentInClear.contains memberId
      encryption := r.encryptionStates.lookup memberId }

/-- A stream of the kind is shown for the member. -/
def Shows (memberId : String) (kind : MediaStreamKind) : Prop :=
  ∃ streams ∈ r.participants.lookup memberId, ∃ stream ∈ streams, stream.kind = kind

end Roster

section
variable {r : Roster} {memberId : String}

theorem lookup_updateStreams (other : String) (f : List StreamState → List StreamState) :
    (r.updateStreams other f).participants.lookup memberId =
      if memberId = other then (r.participants.lookup memberId).map f
      else r.participants.lookup memberId := by
  unfold Roster.updateStreams
  cases found : r.participants.lookup other with
  | none =>
      split_ifs with same
      · rw [same, found]
        rfl
      · rfl
  | some streams =>
      split_ifs with same
      · rw [same, found]
        exact AList.lookup_insert _
      · exact AList.lookup_insert_ne same

theorem noted_updateStreams (other : String) (f : List StreamState → List StreamState) :
    (r.updateStreams other f).sentInClear = r.sentInClear ∧
      (r.updateStreams other f).encryptionStates = r.encryptionStates := by
  unfold Roster.updateStreams
  split
  · exact ⟨rfl, rfl⟩
  · exact ⟨rfl, rfl⟩

theorem mem_applyEvent (event : PoolEvent) :
    memberId ∈ (r.applyEvent event).participants ↔ memberId ∈ r.participants := by
  have updated (other : String) (f : List StreamState → List StreamState) :
      memberId ∈ (r.updateStreams other f).participants ↔ memberId ∈ r.participants := by
    rw [← AList.lookup_isSome, ← AList.lookup_isSome, lookup_updateStreams]
    split_ifs
    · rw [Option.isSome_map]
    · rfl
  cases event with
  | streamAdded other kind => exact updated other _
  | streamRemoved other kind => exact updated other _
  | streamMuted other kind muted => exact updated other _
  | _ => exact Iff.rfl

theorem shows_updateStreams {other : String} {f : List StreamState → List StreamState}
    {kind : MediaStreamKind} :
    (r.updateStreams other f).Shows memberId kind ↔
      if memberId = other then
        ∃ streams ∈ r.participants.lookup memberId, ∃ stream ∈ f streams, stream.kind = kind
      else r.Shows memberId kind := by
  unfold Roster.Shows
  rw [lookup_updateStreams]
  split_ifs
  · simp
  · rfl

/-- A participant shows the streams that the host hears of. -/
theorem shows_applyEvent {streams : List Stream} (there : memberId ∈ r.participants)
    (same : ∀ kind, r.Shows memberId kind ↔ (memberId, kind) ∈ streams) (event : PoolEvent)
    (kind : MediaStreamKind) :
    (r.applyEvent event).Shows memberId kind ↔ (memberId, kind) ∈ heard streams [event] := by
  obtain ⟨shown, found⟩ := Option.isSome_iff_exists.mp (AList.lookup_isSome.mpr there)
  have shown_iff (kind : MediaStreamKind) :
      (∃ stream ∈ shown, stream.kind = kind) ↔ (memberId, kind) ∈ streams := by
    rw [← same kind]
    simp [Roster.Shows, found]
  cases event with
  | streamAdded other added =>
      refine shows_updateStreams.trans ?_
      rw [heard, heard, List.mem_cons]
      split_ifs with is_other
      · subst is_other
        simp only [found, Option.mem_def, Option.some.injEq, exists_eq_left', Prod.mk.injEq,
          true_and, ← shown_iff]
        split_ifs with had
        · obtain ⟨stream, at_, is_kind⟩ := List.any_eq_true.mp had
          refine (or_iff_right_of_imp fun is_added => ⟨stream, at_, ?_⟩).symm
          rw [is_added]
          exact beq_iff_eq.mp is_kind
        · simp only [List.mem_append, List.mem_singleton, or_and_right, exists_or,
            exists_eq_left]
          rw [or_comm, eq_comm]
      · rw [same kind]
        exact (or_iff_right fun h => is_other (congrArg Prod.fst h)).symm
  | streamRemoved other removed =>
      refine shows_updateStreams.trans ?_
      rw [heard, heard, List.mem_filter, bne_iff_ne]
      split_ifs with is_other
      · subst is_other
        simp only [found, Option.mem_def, Option.some.injEq, exists_eq_left', ← shown_iff,
          List.mem_filter, bne_iff_ne, ne_eq, Prod.mk.injEq, true_and]
        constructor
        · rintro ⟨stream, ⟨at_, left⟩, rfl⟩
          exact ⟨⟨stream, at_, rfl⟩, left⟩
        · rintro ⟨⟨stream, at_, rfl⟩, left⟩
          exact ⟨stream, ⟨at_, left⟩, rfl⟩
      · rw [same kind]
        exact (and_iff_left fun h => is_other (congrArg Prod.fst h)).symm
  | streamMuted other changed muted =>
      refine shows_updateStreams.trans ?_
      change _ ↔ (memberId, kind) ∈ streams
      split_ifs with is_other
      · simp only [found, Option.mem_def, Option.some.injEq, exists_eq_left', ← shown_iff,
          List.mem_map, exists_exists_and_eq_and]
        refine exists_congr fun stream => and_congr_right fun _ => ?_
        split_ifs with is_kind
        · rw [is_kind]
        · rfl
      · exact same kind
  | _ => exact same kind

theorem mem_applyPoolEvents (events : List PoolEvent) :
    memberId ∈ (r.applyPoolEvents events).participants ↔ memberId ∈ r.participants := by
  unfold Roster.applyPoolEvents
  induction events generalizing r with
  | nil => exact Iff.rfl
  | cons event rest ih => exact (ih (r := r.applyEvent event)).trans (mem_applyEvent event)

theorem shows_applyPoolEvents {streams : List Stream} (there : memberId ∈ r.participants)
    (same : ∀ kind, r.Shows memberId kind ↔ (memberId, kind) ∈ streams) (events : List PoolEvent)
    (kind : MediaStreamKind) :
    (r.applyPoolEvents events).Shows memberId kind ↔ (memberId, kind) ∈ heard streams events := by
  unfold Roster.applyPoolEvents
  induction events generalizing r streams with
  | nil => exact same kind
  | cons event rest ih =>
      have split_ : heard streams (event :: rest) = heard (heard streams [event]) rest :=
        heard_append streams [event] rest
      rw [split_]
      exact ih ((mem_applyEvent event).mpr there) (shows_applyEvent there same event)

/-- A member sent in the clear where it was noted before, or an event says so. -/
theorem clear_applyPoolEvents (events : List PoolEvent) :
    memberId ∈ (r.applyPoolEvents events).sentInClear ↔
      memberId ∈ r.sentInClear ∨ .sentInClear memberId ∈ events := by
  unfold Roster.applyPoolEvents
  induction events generalizing r with
  | nil => simp
  | cons event rest ih =>
      rw [List.foldl_cons, ih, List.mem_cons, ← or_assoc]
      refine or_congr_left ?_
      have updated (other : String) (f : List StreamState → List StreamState) :
          (r.updateStreams other f).sentInClear = r.sentInClear := (noted_updateStreams other f).1
      cases event with
      | sentInClear other =>
          rw [Roster.applyEvent, List.mem_insert_iff, PoolEvent.sentInClear.injEq, or_comm]
      | streamAdded other kind => simp [Roster.applyEvent, Roster.addStream, updated]
      | streamRemoved other kind => simp [Roster.applyEvent, Roster.removeStream, updated]
      | streamMuted other kind muted => simp [Roster.applyEvent, Roster.setMemberMuted, updated]
      | _ => simp [Roster.applyEvent]

/-- The encryption state of a member that `events` leave, where they found `state`. -/
def lastTold (memberId : String) (state : Option FrameEncryptionState) :
    List PoolEvent → Option FrameEncryptionState
  | [] => state
  | .encryptionStateChanged other told :: later =>
      lastTold memberId (if other = memberId then some told else state) later
  | _ :: later => lastTold memberId state later

theorem encryption_applyPoolEvents (events : List PoolEvent) :
    (r.applyPoolEvents events).encryptionStates.lookup memberId =
      lastTold memberId (r.encryptionStates.lookup memberId) events := by
  unfold Roster.applyPoolEvents
  induction events generalizing r with
  | nil => rfl
  | cons event rest ih =>
      refine (ih (r := r.applyEvent event)).trans ?_
      have updated (other : String) (f : List StreamState → List StreamState) :
          (r.updateStreams other f).encryptionStates = r.encryptionStates :=
        (noted_updateStreams other f).2
      cases event with
      | encryptionStateChanged other told =>
          rw [lastTold, Roster.applyEvent]
          split_ifs with same
          · rw [same, AList.lookup_insert]
          · rw [AList.lookup_insert_ne (Ne.symm same)]
      | streamAdded other kind => simp [lastTold, Roster.applyEvent, Roster.addStream, updated]
      | streamRemoved other kind => simp [lastTold, Roster.applyEvent, Roster.removeStream, updated]
      | streamMuted other kind muted =>
          simp [lastTold, Roster.applyEvent, Roster.setMemberMuted, updated]
      | _ => rfl

/-- What is noted of a member, whether or not it is a participant. -/
structure Note where
  streams : Option (List StreamState)
  sentInClear : Bool
  encryption : Option FrameEncryptionState

/-- Nothing is noted. -/
def Note.blank : Note := ⟨none, false, none⟩

/-- A participant of which nothing else is noted. -/
def Note.fresh : Note := ⟨some [], false, none⟩

/-- The member is a participant from now on. -/
def Note.entered (n : Note) : Note := { n with streams := some [] }

def Roster.note (r : Roster) (memberId : String) : Note :=
  ⟨r.participants.lookup memberId, r.sentInClear.contains memberId,
    r.encryptionStates.lookup memberId⟩

theorem note_removeMember (r : Roster) (other memberId : String) :
    (r.removeMember other).note memberId =
      if memberId = other then .blank else r.note memberId := by
  unfold Roster.removeMember Roster.note
  split_ifs with same
  · rw [same, AList.lookup_erase, AList.lookup_erase, Note.blank]
    simp
  · rw [AList.lookup_erase_ne same, AList.lookup_erase_ne same]
    congr 1
    rw [Bool.eq_iff_iff, List.contains_iff_mem, List.contains_iff_mem, List.mem_filter]
    exact and_iff_left (bne_iff_ne.mpr same)

theorem note_removeAll (departed : List String) (r : Roster) (memberId : String) :
    (departed.foldl Roster.removeMember r).note memberId =
      if memberId ∈ departed then .blank else r.note memberId := by
  induction departed generalizing r with
  | nil => rfl
  | cons other rest ih =>
      rw [List.foldl_cons, ih, note_removeMember]
      by_cases same : memberId = other <;> by_cases later : memberId ∈ rest <;> simp [same, later]

/-- A participant stays as it is, and whoever else arrives gets an entry. -/
theorem note_addMember (r : Roster) (member : JoinedMembership) (memberId : String) :
    (r.addMember member).note memberId =
      if memberId = member.memberId ∧ memberId ∉ r.participants then
        (r.note memberId).entered
      else r.note memberId := by
  unfold Roster.addMember
  by_cases same : memberId = member.memberId
  · subst same
    by_cases there : member.memberId ∈ r.participants
    · rw [if_pos there, if_neg (not_and_not_right.mpr fun _ => there)]
    · rw [if_neg there, if_pos ⟨rfl, there⟩, Roster.note, AList.lookup_insert]
      rfl
  · rw [if_neg (not_and_of_not_left _ same)]
    split_ifs with there
    · rfl
    · rw [Roster.note, AList.lookup_insert_ne same]
      rfl

theorem mem_addMember {r : Roster} {member : JoinedMembership} {memberId : String} :
    memberId ∈ (r.addMember member).participants ↔
      memberId = member.memberId ∨ memberId ∈ r.participants := by
  unfold Roster.addMember
  split_ifs with there
  · exact (or_iff_right_of_imp fun same => same ▸ there).symm
  · exact AList.mem_insert _

theorem note_addAll (snapshot : List JoinedMembership) (r : Roster) (memberId : String) :
    (snapshot.foldl Roster.addMember r).note memberId =
      if Named snapshot memberId ∧ memberId ∉ r.participants then
        (r.note memberId).entered
      else r.note memberId := by
  induction snapshot generalizing r with
  | nil =>
      rw [if_neg]
      · rfl
      · rintro ⟨⟨_, there, _⟩, -⟩
        cases there
  | cons member rest ih =>
      have named : Named (member :: rest) memberId ↔
          memberId = member.memberId ∨ Named rest memberId := by
        simp [Named, eq_comm]
      simp only [List.foldl_cons, ih, note_addMember, mem_addMember, named]
      by_cases same : memberId = member.memberId <;>
        by_cases there : memberId ∈ r.participants <;> simp [same, there, Note.entered]

/-- Where nothing is noted of whoever is no participant, a snapshot makes a participant of
whoever it names, keeps what is noted of those that stay, and forgets who leaves. -/
theorem note_applySnapshot {r : Roster} {memberId : String}
    (clean : memberId ∉ r.participants → r.note memberId = .blank)
    (snapshot : List JoinedMembership) :
    (r.applySnapshot snapshot).note memberId =
      if Named snapshot memberId then
        if memberId ∈ r.participants then r.note memberId else .fresh
      else .blank := by
  unfold Roster.applySnapshot
  extract_lets departed
  have left : memberId ∈ departed ↔ memberId ∈ r.participants ∧ ¬ Named snapshot memberId := by
    rw [List.mem_filter, AList.mem_keys, decide_eq_true_eq, named_iff]
  have removed := note_removeAll departed r memberId
  have stays : memberId ∈ (departed.foldl Roster.removeMember r).participants ↔
      memberId ∈ r.participants ∧ memberId ∉ departed := by
    rw [← AList.lookup_isSome, ← AList.lookup_isSome]
    change (Roster.note _ memberId).streams.isSome = true ↔
      (r.note memberId).streams.isSome = true ∧ _
    rw [removed]
    split_ifs with gone
    · exact iff_of_false Bool.false_ne_true fun h => h.2 gone
    · exact (and_iff_left gone).symm
  simp only [note_addAll, removed, stays, left]
  by_cases named : Named snapshot memberId
  · by_cases there : memberId ∈ r.participants
    · simp [named, there]
    · simp [named, there, clean there, Note.entered, Note.fresh, Note.blank]
  · by_cases there : memberId ∈ r.participants
    · simp [named, there]
    · simp [named, there, clean there]

theorem mem_of_note {r : Roster} {memberId : String} :
    memberId ∈ r.participants ↔ (r.note memberId).streams.isSome :=
  AList.lookup_isSome.symm

end

end MatrixRtc.HostRosters

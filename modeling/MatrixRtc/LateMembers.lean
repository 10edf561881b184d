import MatrixRtc.HostRosters
import MatrixRtc.PlacedMedia
import MatrixRtc.PoolAttribution
import MatrixRtc.PoolConnects

/-!
# Members whose membership arrives late

The events of a connection about an identity, and the snapshots in which the member that has
it is there or is not, may come in any order. Whichever it is, the host shows of the member
at the end the streams that the events leave, and whether they sent in the clear. How their
frames decrypt is told of a member that is there, and of nobody before.
-/
namespace MatrixRtc.LateMembers
open MemberEvents MediaTransports Tables MediaPools PoolMoves PoolMembers PoolFrames PoolConnects
open PoolSignals PlacedMedia HostRosters StepRuns

/-- A pool, and the roster of the host that is told of its events. -/
structure Watched where
  pool : MediaPool
  roster : Roster

def start (config : PoolConfig) : Watched := ⟨.new config, .empty⟩

/-- A call, whose events the host takes; a snapshot is put on the roster before. -/
def step (w : Watched) (input : Input) : Option Watched :=
  let (pool, events, _) := (w.pool.perform input).take
  let roster := match input.call with
    | .applySnapshot snapshot => w.roster.applySnapshot snapshot
    | _ => w.roster
  some ⟨pool, roster.applyPoolEvents events⟩

/-- What a connection says about an identity. -/
inductive Fact where
  | trackAdded (kind : MediaStreamKind) (track : ℕ)
  | trackRemoved (kind : MediaStreamKind)
  | trackMuted (kind : MediaStreamKind)
  | trackUnmuted (kind : MediaStreamKind)
  | trackNotEncrypted (kind : MediaStreamKind)
  | encryptionStateChanged (state : FrameEncryptionState)
deriving DecidableEq, Repr

def Fact.event (identity : String) : Fact → ConnectionEvent
  | .trackAdded kind track => .trackAdded identity kind track
  | .trackRemoved kind => .trackRemoved identity kind
  | .trackMuted kind => .trackMuted identity kind
  | .trackUnmuted kind => .trackUnmuted identity kind
  | .trackNotEncrypted kind => .trackNotEncrypted identity kind
  | .encryptionStateChanged state => .encryptionStateChanged identity state

/-- A snapshot, or what the connection says. -/
inductive News where
  | membership (snapshot : List JoinedMembership)
  | media (fact : Fact)

structure Delivery where
  news : News
  now : ℕ
  takeOver : Except TransportError Unit

def Delivery.input (key : String) (generation : ℕ) (identity : String) (d : Delivery) : Input :=
  { call := match d.news with
      | .membership snapshot => .applySnapshot snapshot
      | .media fact => .handle (.connection key generation (fact.event identity))
    now := d.now
    takeOver := d.takeOver }

def deliver (key : String) (generation : ℕ) (identity : String) (w : Watched) (d : Delivery) :
    Option Watched := step w (d.input key generation identity)

def Delivery.fact (d : Delivery) : Option Fact :=
  match d.news with
  | .membership _ => none
  | .media fact => some fact

def facts (ds : List Delivery) : List Fact := ds.filterMap Delivery.fact

/-- There is a track of the kind after the facts. -/
def carries (kind : MediaStreamKind) (facts : List Fact) : Bool :=
  facts.foldl
    (fun there fact =>
      match fact with
      | .trackAdded added _ => there || added == kind
      | .trackRemoved removed => there && removed != kind
      | _ => there)
    false

/-- A track was refused as sent in the clear. -/
def sentClear (facts : List Fact) : Bool :=
  facts.any fun
    | .trackNotEncrypted _ => true
    | _ => false

/-- How frames decrypt after the facts, as far as they say. -/
def lastState (facts : List Fact) : Option FrameEncryptionState :=
  facts.foldl
    (fun state fact =>
      match fact with
      | .encryptionStateChanged told => some told
      | _ => state)
    none

/-- The facts since the member is there, where it is. -/
def noted (memberId : String) (since : Option (List Fact)) (d : Delivery) : Option (List Fact) :=
  match d.news with
  | .membership snapshot => if Named snapshot memberId then some (since.getD []) else none
  | .media fact => since.map (· ++ [fact])

/-- The facts since the member was last added, where it is there at the end. -/
def sinceAdded (memberId : String) (ds : List Delivery) : Option (List Fact) :=
  ds.foldl (noted memberId) none

/-- The identity is that of the members that `holds` says, one at a time. -/
structure Owned (holds : String → Prop) (identity : String) (transports : List MediaTransport)
    (snapshot : List JoinedMembership) : Prop where
  identities : ∀ member ∈ snapshot,
    remoteIdentity transports member = some identity ↔ holds member.memberId
  alone : ∀ member ∈ snapshot, ∀ other ∈ snapshot,
    holds member.memberId → holds other.memberId → member.memberId = other.memberId

/-- Nobody has had the identity, or is known to be about to. -/
structure Unheard (holds : String → Prop) (identity : String) (w : Watched) : Prop where
  unmapped : w.pool.identityMap.lookup identity = none
  unnamed : ∀ memberId, w.pool.memberIdentities.lookup memberId ≠ some identity
  silent : w.pool.pendingTracks.lookup identity = none
  encrypted : identity ∉ w.pool.sentInClear
  strangers : ∀ memberId, holds memberId →
    memberId ∉ w.pool.knownMembers ∧ w.roster.note memberId = .blank

section
variable {p q : MediaPool} {holds : String → Prop} {identity key : String} {generation : ℕ}

theorem lookup_openPeer_ne {key other : String} (differs : other ≠ key) (backend : MediaTransport)
    (members : List String) :
    (p.openPeer key backend members).pool.lookup other = p.pool.lookup other := by
  by_cases peer : p.ownConnectionKey = some key
  · rw [MediaPool.openPeer, if_pos peer]
  · rw [openPeer_eq _ _ _ peer]
    exact (AList.lookup_insert_ne differs).trans (AList.lookup_insert_ne differs)

/-- A connection keeps its generation where the snapshot is reconciled. -/
theorem isCurrent_reconcilePool (h : p.isCurrent key generation = true) :
    p.reconcilePool.isCurrent key generation = true := by
  unfold MediaPool.reconcilePool
  extract_lets missing
  obtain ⟨entry, found, same⟩ := (Option.any_eq_true _ _).mp h
  have regrouped : p.regroup.isCurrent key generation = true := by
    rw [MediaPool.isCurrent, OwnFocus.lookup_regroup, found]
    exact same
  have others (e : Sigma fun _ : String => MediaTransport × List String) (there : e ∈ missing) :
      e.1 ≠ key := by
    rintro rfl
    have none_ := (List.mem_filter.mp there).2
    rw [found] at none_
    cases none_
  clear_value missing
  generalize p.regroup = q at regrouped
  induction missing generalizing q with
  | nil => exact regrouped
  | cons e rest ih =>
      refine ih (fun other there => others other (.tail _ there)) _ ?_
      rw [MediaPool.isCurrent, lookup_openPeer_ne (others e (.head _)).symm]
      exact regrouped

theorem isCurrent_applySnapshot (h : p.isCurrent key generation = true)
    (snapshot : List JoinedMembership) :
    (p.applySnapshot snapshot).isCurrent key generation = true := by
  refine isCurrent_reconcilePool ?_
  have same := (calm_joined (p := p) snapshot).beside.pool
  change ((snapshot.foldl MediaPool.joinMember (p.forgetDeparted snapshot)).pool.lookup key).any
    _ = true
  rw [same]
  exact h

/-- The identity is known as that of its member, and what is kept of it is in its place. -/
structure Kept (holds : String → Prop) (identity key : String) (kinds : MediaStreamKind → Prop)
    (p : MediaPool) : Prop where
  attributed : Attributed p
  placed : Placed identity key kinds p
  held : ∀ {memberId}, holds memberId → memberId ∈ p.knownMembers →
    p.identityMap.lookup identity = some memberId
  holder : ∀ {memberId}, p.identityMap.lookup identity = some memberId → holds memberId

variable {kinds : MediaStreamKind → Prop}

theorem Kept.forgetDeparted (h : Kept holds identity key kinds p)
    (snapshot : List JoinedMembership) :
    Kept holds identity key kinds (p.forgetDeparted snapshot) := by
  have ⟨attributed, _, mapping, known, _, _⟩ := remains_forgetDeparted h.attributed snapshot
  refine ⟨attributed, h.placed.forgetDeparted h.attributed snapshot,
    fun {memberId} is_holder there => ?_, fun {memberId} mapped => ?_⟩
  · obtain ⟨before, named⟩ := (known memberId).mp there
    rw [mapping, h.held is_holder before]
    simp [Option.filter, named]
  · rw [mapping, Option.filter_eq_some_iff] at mapped
    exact h.holder mapped.1

/-- A member arrives that has the identity if nobody known has it, or that has another one. -/
theorem Kept.joinMember (h : Kept holds identity key kinds p) {member : JoinedMembership}
    (is_holder : remoteIdentity p.transports member = some identity ↔ holds member.memberId)
    (alone : holds member.memberId → ∀ other ∈ p.knownMembers, holds other →
      other = member.memberId) :
    Kept holds identity key kinds (p.joinMember member) := by
  refine ⟨h.attributed.joinMember member, h.placed.joinMember h.attributed member
    fun new has => ?_, fun {memberId} holds_ there => ?_, fun {memberId} mapped => ?_⟩
  · refine Option.eq_none_iff_forall_ne_some.mpr fun other mapped => new ?_
    have known := h.attributed.known mapped
    exact alone (is_holder.mp has) other known (h.holder mapped) ▸ known
  · rw [lookup_joinMember]
    obtain rfl | before := mem_known_joinMember.mp there
    · split_ifs with arrives
      · rfl
      · have known : member.memberId ∈ p.knownMembers := by
          by_contra new
          exact arrives ⟨new, is_holder.mpr holds_⟩
        exact h.held holds_ known
    · split_ifs with arrives
      · rw [alone (is_holder.mp arrives.2) memberId before holds_]
      · exact h.held holds_ before
  · rw [lookup_joinMember] at mapped
    split_ifs at mapped with arrives
    · cases mapped
      exact is_holder.mp arrives.2
    · exact h.holder mapped

theorem Kept.joinAll {snapshot rest : List JoinedMembership}
    (h : Kept holds identity key kinds p) (owned : Owned holds identity p.transports snapshot)
    (part : ∀ member ∈ rest, member ∈ snapshot)
    (named : ∀ memberId ∈ p.knownMembers, Named snapshot memberId) :
    Kept holds identity key kinds (rest.foldl MediaPool.joinMember p) := by
  induction rest generalizing p with
  | nil => exact h
  | cons member rest ih =>
      have there := part member (.head _)
      have joined := h.joinMember (owned.identities member there) fun is_holder other known has => by
        obtain ⟨_, otherThere, rfl⟩ := named other known
        exact owned.alone _ otherThere member there has is_holder
      refine ih joined ?_ (fun other there => part other (.tail _ there)) fun memberId known => ?_
      · rw [transports_joinMember]
        exact owned
      · obtain rfl | before := mem_known_joinMember.mp known
        · exact ⟨member, there, rfl⟩
        · exact named memberId before

theorem Kept.of_place (h : Kept holds identity key kinds p) (attributed : Attributed q)
    (place : placeOf q = placeOf p) (known : q.knownMembers = p.knownMembers) :
    Kept holds identity key kinds q := by
  have mapping : q.identityMap = p.identityMap := congrArg Prod.fst place
  refine ⟨attributed, h.placed.of_place place, fun is_holder there => ?_, fun mapped => ?_⟩
  · rw [mapping]
    exact h.held is_holder (known ▸ there)
  · exact h.holder (mapping ▸ mapped)

theorem place_openPeer (key : String) (backend : MediaTransport) (members : List String) :
    placeOf (p.openPeer key backend members) = placeOf p := by
  by_cases peer : p.ownConnectionKey = some key
  · rw [MediaPool.openPeer, if_pos peer]
  · rw [openPeer_eq _ _ _ peer]
    rfl

theorem place_reconcilePool (p : MediaPool) : placeOf p.reconcilePool = placeOf p := by
  unfold MediaPool.reconcilePool
  extract_lets missing
  have regrouped : placeOf p.regroup = placeOf p := rfl
  rw [← regrouped]
  generalize p.regroup = q
  induction missing generalizing q with
  | nil => rfl
  | cons e rest ih => exact (ih _).trans (place_openPeer e.1 e.2.1 e.2.2)

theorem Kept.applySnapshot (h : Kept holds identity key kinds p)
    {snapshot : List JoinedMembership} (owned : Owned holds identity p.transports snapshot) :
    Kept holds identity key kinds (p.applySnapshot snapshot) := by
  have ⟨_, transports, _, known, _, _⟩ := remains_forgetDeparted h.attributed snapshot
  have joined := (h.forgetDeparted snapshot).joinAll (transports ▸ owned) (fun _ there => there)
    fun memberId there => ((known memberId).mp there).2
  exact joined.of_place (h.attributed.applySnapshot snapshot) (place_reconcilePool _)
    moves_reconcilePool.known

theorem carries_append (kind : MediaStreamKind) (said : List Fact) (fact : Fact) :
    carries kind (said ++ [fact]) =
      match fact with
      | .trackAdded added _ => carries kind said || added == kind
      | .trackRemoved removed => carries kind said && removed != kind
      | _ => carries kind said := by
  rw [carries, List.foldl_append]
  rfl

theorem lastState_append (said : List Fact) (fact : Fact) :
    lastState (said ++ [fact]) =
      match fact with
      | .encryptionStateChanged told => some told
      | _ => lastState said := by
  rw [lastState, List.foldl_append]
  rfl

/-- What a fact changes of what is kept of the identity. -/
theorem placed_fact {said : List Fact}
    (h : Placed identity key (fun kind => carries kind said = true) p) (fact : Fact) (now : ℕ)
    (takeOver : Except TransportError Unit) :
    Placed identity key (fun kind => carries kind (said ++ [fact]) = true)
      (p.handleConnectionEvent key (fact.event identity) now takeOver) := by
  simp only [carries_append]
  cases fact with
  | trackAdded kind track =>
      simp only [Bool.or_eq_true, beq_iff_eq, eq_comm (a := kind)]
      exact h.trackAdded kind track
  | trackRemoved kind =>
      simp only [Bool.and_eq_true, bne_iff_ne, ne_eq, eq_comm (a := kind)]
      exact h.trackRemoved kind
  | trackMuted kind => exact h.of_place (place_of_quiet (quiet_muted identity kind true))
  | trackUnmuted kind => exact h.of_place (place_of_quiet (quiet_muted identity kind false))
  | trackNotEncrypted kind => exact h.of_place (place_of_quiet (quiet_trackNotEncrypted identity))
  | encryptionStateChanged state =>
      exact h.of_place (place_of_quiet (quiet_encryptionStateChanged identity state))

theorem Kept.fact {said : List Fact}
    (h : Kept holds identity key (fun kind => carries kind said = true) p) (fact : Fact) (now : ℕ)
    (takeOver : Except TransportError Unit) :
    Kept holds identity key (fun kind => carries kind (said ++ [fact]) = true)
      (p.handleConnectionEvent key (fact.event identity) now takeOver) := by
  have moves := moves_handleConnectionEvent (p := p) key (fact.event identity) now takeOver
  refine ⟨h.attributed.moved moves, placed_fact h.placed fact now takeOver,
    fun is_holder there => ?_, fun mapped => ?_⟩
  · rw [moves.mapping]
    exact h.held is_holder (moves.known ▸ there)
  · exact h.holder (moves.mapping ▸ mapped)

/-- What a fact signals of the member that has the identity, if one has. -/
def factSignals (holder : Option String) : Fact → List PoolEvent
  | .trackNotEncrypted _ => holder.toList.map .sentInClear
  | .encryptionStateChanged state => holder.toList.map (.encryptionStateChanged · state)
  | _ => []

theorem signals_fact (p : MediaPool) (key identity : String) (fact : Fact) (now : ℕ)
    (takeOver : Except TransportError Unit) :
    signals (p.handleConnectionEvent key (fact.event identity) now takeOver) =
      (match fact with
        | .trackNotEncrypted _ => p.sentInClear.insert identity
        | _ => p.sentInClear,
        p.out.filter isSignal ++ factSignals (p.identityMap.lookup identity) fact) := by
  have silent {q : MediaPool} (h : Silent p q) :
      signals q = (p.sentInClear, p.out.filter isSignal ++ []) := by
    rw [h.signals, List.append_nil]
    rfl
  have muted (kind : MediaStreamKind) (muted : Bool) : Silent p (p.muted identity kind muted) := by
    unfold MediaPool.muted
    split
    · exact silent_emit rfl
    · exact .refl p
  cases fact with
  | trackAdded kind track =>
      refine silent ?_
      change Silent p (p.trackAdded key identity kind track)
      unfold MediaPool.trackAdded
      split
      · exact silent_addTrack _ kind _
      · exact ⟨rfl⟩
  | trackRemoved kind =>
      refine silent ?_
      change Silent p (p.trackRemoved key identity kind)
      unfold MediaPool.trackRemoved
      split
      · exact silent_removeTrack _ kind key
      · split
        · exact .refl p
        · exact ⟨rfl⟩
  | trackMuted kind => exact silent (muted kind true)
  | trackUnmuted kind => exact silent (muted kind false)
  | trackNotEncrypted kind =>
      change signals (p.trackNotEncrypted identity) = _
      unfold MediaPool.trackNotEncrypted
      cases mapped : p.identityMap.lookup identity with
      | none =>
          dsimp only
          rw [mapped]
          exact congrArg (Prod.mk _) (List.append_nil _).symm
      | some memberId =>
          dsimp only
          rw [mapped]
          dsimp only
          rw [signals_emit]
          rfl
  | encryptionStateChanged state =>
      change signals (p.encryptionStateChanged identity state) = _
      unfold MediaPool.encryptionStateChanged
      cases mapped : p.identityMap.lookup identity with
      | none => exact silent (.refl p)
      | some memberId =>
          dsimp only
          rw [signals_emit]
          rfl

theorem mem_known_joinAll {memberId : String} (snapshot : List JoinedMembership) (p : MediaPool) :
    memberId ∈ (snapshot.foldl MediaPool.joinMember p).knownMembers ↔
      Named snapshot memberId ∨ memberId ∈ p.knownMembers := by
  induction snapshot generalizing p with
  | nil => simp [Named]
  | cons member rest ih =>
      rw [List.foldl_cons, ih, mem_known_joinMember, ← or_assoc]
      refine or_congr_left ?_
      simp [Named, or_comm, eq_comm]

theorem mem_known_applySnapshot (inv : Attributed p) {snapshot : List JoinedMembership}
    {memberId : String} :
    memberId ∈ (p.applySnapshot snapshot).knownMembers ↔ Named snapshot memberId := by
  rw [show (p.applySnapshot snapshot).knownMembers = _ from moves_reconcilePool.known]
  refine (mem_known_joinAll snapshot _).trans (or_iff_left_of_imp fun there => ?_)
  exact (((remains_forgetDeparted inv snapshot).known memberId).mp there).2

/-- A snapshot signals of the member that has the identity, where it is new to it, whether the
identity sent in the clear. -/
theorem signalled_applySnapshot (h : Kept holds identity key kinds p) (taken : p.out = [])
    {snapshot : List JoinedMembership} (owned : Owned holds identity p.transports snapshot)
    {memberId : String} (is_holder : holds memberId) :
    (.sentInClear memberId ∈ (p.applySnapshot snapshot).out ↔
      memberId ∉ p.knownMembers ∧ Named snapshot memberId ∧ identity ∈ p.sentInClear) ∧
    ∀ state, .encryptionStateChanged memberId state ∉ (p.applySnapshot snapshot).out := by
  have ⟨_, transports, _, known, _, _⟩ := remains_forgetDeparted h.attributed snapshot
  have forgot : Silent p (p.forgetDeparted snapshot) := silent_forgetDeparted snapshot
  obtain ⟨-, later, out, only, each⟩ := signals_joinAll snapshot (p.forgetDeparted snapshot)
  have noted : Silent (snapshot.foldl MediaPool.joinMember (p.forgetDeparted snapshot))
      (p.applySnapshot snapshot) :=
    Silent.trans (q := { snapshot.foldl MediaPool.joinMember (p.forgetDeparted snapshot) with
      membersSnapshot := snapshot }) ⟨rfl⟩ silent_reconcilePool
  have out_ : (p.applySnapshot snapshot).out.filter isSignal = later := by
    rw [noted.out, out, forgot.out, taken]
    rfl
  have signal {event : PoolEvent} (is_signal : isSignal event = true) :
      event ∈ (p.applySnapshot snapshot).out ↔ event ∈ later := by
    rw [← out_, List.mem_filter]
    exact (and_iff_left is_signal).symm
  constructor
  · rw [signal rfl, each, transports, forgot.clear, known, not_and_or]
    have arrives : (arrivalIdentity p.transports snapshot memberId).any p.sentInClear.contains =
        true ↔ Named snapshot memberId ∧ identity ∈ p.sentInClear := by
      unfold arrivalIdentity
      cases found : snapshot.find? (·.memberId == memberId) with
      | none =>
          refine iff_of_false Bool.false_ne_true fun ⟨⟨member, there, same⟩, _⟩ => ?_
          exact List.find?_eq_none.mp found member there (beq_iff_eq.mpr same)
      | some member =>
          have there := List.mem_of_find?_eq_some found
          have same : member.memberId = memberId := by simpa using List.find?_some found
          have has := (owned.identities member there).mpr (same ▸ is_holder)
          rw [Option.bind_some, has, Option.any_some, List.contains_iff_mem]
          exact (and_iff_right ⟨member, there, same⟩).symm
    rw [arrives]
    constructor
    · rintro ⟨new | unnamed, named, clear⟩
      · exact ⟨new, named, clear⟩
      · exact absurd named unnamed
    · rintro ⟨new, named, clear⟩
      exact ⟨.inl new, named, clear⟩
  · intro state there
    obtain ⟨_, same⟩ := only _ ((signal rfl).mp there)
    cases same

theorem lastTold_of_none {memberId : String} {events : List PoolEvent}
    (none_ : ∀ state, .encryptionStateChanged memberId state ∉ events)
    (state : Option FrameEncryptionState) : lastTold memberId state events = state := by
  induction events with
  | nil => rfl
  | cons event rest ih =>
      have later := ih fun told there => none_ told (.tail _ there)
      cases event with
      | encryptionStateChanged other told =>
          rw [lastTold, if_neg, later]
          rintro rfl
          exact none_ told (.head _)
      | _ => exact later

theorem lastTold_filter (memberId : String) (state : Option FrameEncryptionState)
    (events : List PoolEvent) :
    lastTold memberId state (events.filter isSignal) = lastTold memberId state events := by
  induction events generalizing state with
  | nil => rfl
  | cons event rest ih => cases event <;> exact ih _

/-- What the host notes of a member that has the identity is what was said of it, of which
`since` was said since it is there. -/
structure Shown (memberId : String) (said : List Fact) (since : Option (List Fact))
    (w : Watched) : Prop where
  joined : memberId ∈ w.roster.participants ↔ memberId ∈ w.pool.knownMembers
  clean : memberId ∉ w.roster.participants → w.roster.note memberId = .blank
  present : since.isSome ↔ memberId ∈ w.roster.participants
  streams : memberId ∈ w.roster.participants → ∀ kind,
    w.roster.Shows memberId kind ↔ (memberId, kind) ∈ w.pool.tracks
  clear : memberId ∈ w.roster.participants →
    (memberId ∈ w.roster.sentInClear ↔ sentClear said = true)
  states : ∀ last, since = some last →
    w.roster.encryptionStates.lookup memberId = lastState last

theorem shows_iff_note {r : Roster} {memberId : String} {kind : MediaStreamKind} :
    r.Shows memberId kind ↔
      ∃ streams ∈ (r.note memberId).streams, ∃ stream ∈ streams, stream.kind = kind := Iff.rfl

theorem clear_iff_note {r : Roster} {memberId : String} :
    memberId ∈ r.sentInClear ↔ (r.note memberId).sentInClear = true := List.contains_iff_mem.symm

theorem blank_applyPoolEvents {r : Roster} {memberId : String} {events : List PoolEvent}
    (blank : r.note memberId = .blank) (unclear : .sentInClear memberId ∉ events)
    (untold : ∀ state, .encryptionStateChanged memberId state ∉ events) :
    (r.applyPoolEvents events).note memberId = .blank := by
  have absent : memberId ∉ (r.applyPoolEvents events).participants := by
    rw [mem_applyPoolEvents, mem_of_note, blank]
    exact Bool.false_ne_true
  have clear : memberId ∉ (r.applyPoolEvents events).sentInClear := by
    rw [clear_applyPoolEvents, clear_iff_note, blank]
    exact not_or_intro Bool.false_ne_true unclear
  have state : (r.applyPoolEvents events).encryptionStates.lookup memberId = none := by
    rw [encryption_applyPoolEvents, lastTold_of_none untold]
    exact congrArg Note.encryption blank
  rw [Roster.note, AList.lookup_eq_none.mpr absent, state]
  simpa [Note.blank] using clear

/-- A snapshot keeps what is noted of a member that stays, and of one that arrives it is noted
what the identity left. -/
theorem Shown.membership {w : Watched} {memberId : String} {said : List Fact}
    {since : Option (List Fact)} (h : Shown memberId said since w)
    (kept : Kept holds identity key kinds w.pool) (taken : w.pool.out = [])
    (clear : identity ∈ w.pool.sentInClear ↔ sentClear said = true) (is_holder : holds memberId)
    {snapshot : List JoinedMembership}
    (owned : Owned holds identity w.pool.transports snapshot) :
    Shown memberId said (if Named snapshot memberId then some (since.getD []) else none)
      ⟨(w.pool.applySnapshot snapshot).take.1,
        (w.roster.applySnapshot snapshot).applyPoolEvents (w.pool.applySnapshot snapshot).out⟩ := by
  have inv := kept.attributed
  have note := note_applySnapshot h.clean snapshot
  obtain ⟨signalled, untold⟩ := signalled_applySnapshot kept taken owned is_holder
  generalize w.roster.applySnapshot snapshot = r at note
  have there_ : memberId ∈ r.participants ↔ Named snapshot memberId := by
    rw [mem_of_note, note]
    split_ifs with named there
    · exact iff_of_true (mem_of_note.mp there) named
    · exact iff_of_true rfl named
    · exact iff_of_false Bool.false_ne_true named
  have after : memberId ∈ (r.applyPoolEvents (w.pool.applySnapshot snapshot).out).participants ↔
      Named snapshot memberId := (mem_applyPoolEvents _).trans there_
  refine ⟨after.trans (mem_known_applySnapshot inv).symm, fun absent => ?_, ?_, fun there kind => ?_,
    fun there => ?_, fun last is_last => ?_⟩
  · have unnamed := fun named => absent (after.mpr named)
    refine blank_applyPoolEvents ?_ (fun told => unnamed (signalled.mp told).2.1) untold
    rw [note, if_neg unnamed]
  · refine Iff.trans ?_ after.symm
    split_ifs with named
    · exact iff_of_true rfl named
    · exact iff_of_false Bool.false_ne_true named
  · have named := after.mp there
    have ⟨_, _, _, known, tracks, out⟩ := remains_forgetDeparted inv snapshot
    obtain ⟨events, reported, told⟩ := told_applySnapshot w.pool snapshot
    have listed : (w.pool.applySnapshot snapshot).out = events := by
      rw [reported, out, taken]
      rfl
    rw [listed]
    refine (shows_applyPoolEvents (there_.mpr named) (fun other => ?_) events kind).trans
      (told (memberId, kind)).symm
    rw [AList.mem_keys.symm.trans (tracks (memberId, other)), shows_iff_note, note, if_pos named]
    split_ifs with before
    · exact (h.streams before other).trans (and_iff_left named).symm
    · refine iff_of_false (fun ⟨streams, found, shown⟩ => ?_) fun ⟨track, _⟩ => ?_
      · cases found
        obtain ⟨_, none_, _⟩ := shown
        cases none_
      · exact before (h.joined.mpr (inv.streams track))
  · have named := after.mp there
    rw [clear_applyPoolEvents, signalled, clear_iff_note, note, if_pos named, ← h.joined, clear]
    split_ifs with before
    · rw [← clear_iff_note, h.clear before]
      exact or_iff_left fun new => new.1 before
    · exact ⟨fun told => told.elim (fun fresh => nomatch fresh) (·.2.2),
        fun clear => .inr ⟨before, named, clear⟩⟩
  · split_ifs at is_last with named
    obtain rfl := Option.some.inj is_last
    rw [encryption_applyPoolEvents, lastTold_of_none untold]
    change (r.note memberId).encryption = _
    rw [note, if_pos named]
    split_ifs with before
    · obtain ⟨last, is_since⟩ := Option.isSome_iff_exists.mp (h.present.mpr before)
      rw [is_since, Option.getD_some]
      exact h.states last is_since
    · have absent : since = none := by
        rw [← Option.not_isSome_iff_eq_none, h.present]
        exact before
      rw [absent]
      rfl

theorem sentClear_append (said : List Fact) (fact : Fact) :
    sentClear (said ++ [fact]) = (sentClear said || sentClear [fact]) := List.any_append

theorem signalled_fact (taken : p.out = []) {event : PoolEvent} (is_signal : isSignal event = true)
    (key identity : String) (fact : Fact) (now : ℕ) (takeOver : Except TransportError Unit) :
    event ∈ (p.handleConnectionEvent key (fact.event identity) now takeOver).out ↔
      event ∈ factSignals (p.identityMap.lookup identity) fact := by
  have out := congrArg Prod.snd (signals_fact p key identity fact now takeOver)
  rw [taken] at out
  change List.filter isSignal _ = factSignals _ _ at out
  rw [← out, List.mem_filter]
  exact (and_iff_left is_signal).symm

/-- A fact about the identity is noted of the member that has it. -/
theorem Shown.fact {w : Watched} {memberId : String} {said : List Fact}
    {since : Option (List Fact)} (h : Shown memberId said since w)
    (kept : Kept holds identity key kinds w.pool) (taken : w.pool.out = [])
    (is_holder : holds memberId) (fact : Fact) (now : ℕ) (takeOver : Except TransportError Unit) :
    Shown memberId (said ++ [fact]) (since.map (· ++ [fact]))
      ⟨(w.pool.handleConnectionEvent key (fact.event identity) now takeOver).take.1,
        w.roster.applyPoolEvents
          (w.pool.handleConnectionEvent key (fact.event identity) now takeOver).out⟩ := by
  have moves := moves_handleConnectionEvent (p := w.pool) key (fact.event identity) now takeOver
  have signal {event : PoolEvent} (is_signal : isSignal event = true) :=
    signalled_fact taken is_signal key identity fact now takeOver
  have signals_ := congrArg Prod.snd (signals_fact w.pool key identity fact now takeOver)
  generalize w.pool.handleConnectionEvent key (fact.event identity) now takeOver = q at *
  have after : memberId ∈ (w.roster.applyPoolEvents q.out).participants ↔
      memberId ∈ w.roster.participants := mem_applyPoolEvents _
  have mapped (there : memberId ∈ w.roster.participants) :
      w.pool.identityMap.lookup identity = some memberId := kept.held is_holder (h.joined.mp there)
  refine ⟨after.trans (h.joined.trans ?_), fun absent => ?_, ?_, fun there kind => ?_,
    fun there => ?_, fun last is_last => ?_⟩
  · exact (congrArg (memberId ∈ ·) moves.known).symm.to_iff
  · -- it does not have the identity: what is signalled is not of it
    have absent := fun there => absent (after.mpr there)
    have unheld : w.pool.identityMap.lookup identity ≠ some memberId := fun mapped =>
      absent (h.joined.mpr (kept.attributed.known mapped))
    refine blank_applyPoolEvents (h.clean absent) (fun told => ?_) fun state told => ?_
    · rw [signal rfl] at told
      cases fact with
      | trackNotEncrypted kind => exact unheld (by simpa [factSignals] using told)
      | encryptionStateChanged state => simp [factSignals] at told
      | _ => cases told
    · rw [signal rfl] at told
      cases fact with
      | trackNotEncrypted kind => simp [factSignals] at told
      | encryptionStateChanged state =>
          obtain ⟨holder, is_holder, same⟩ := List.mem_map.mp told
          cases same
          exact unheld (Option.mem_toList.mp is_holder)
      | _ => cases told
  · rw [Option.isSome_map, h.present, after]
  · obtain ⟨events, reported, told⟩ := moves.told
    rw [taken, List.nil_append] at reported
    rw [reported]
    refine (shows_applyPoolEvents (after.mp there) (fun other => ?_) events kind).trans
      (told (memberId, kind)).symm
    exact (h.streams (after.mp there) other).trans AList.mem_keys.symm
  · rw [clear_applyPoolEvents, h.clear (after.mp there), sentClear_append, Bool.or_eq_true,
      signal rfl, mapped (after.mp there)]
    refine or_congr_right ?_
    cases fact <;> simp [factSignals, sentClear]
  · obtain ⟨before, is_before, rfl⟩ := Option.map_eq_some_iff.mp is_last
    have there : memberId ∈ w.roster.participants :=
      h.present.mp (Option.isSome_of_mem is_before)
    have out : q.out.filter isSignal = factSignals (some memberId) fact := by
      rw [← mapped there]
      refine signals_.trans ?_
      rw [taken]
      rfl
    rw [encryption_applyPoolEvents, ← lastTold_filter, out, h.states before is_before,
      lastState_append]
    cases fact with
    | encryptionStateChanged state => exact if_pos rfl
    | _ => rfl

theorem mem_clear_fact (p : MediaPool) (key identity : String) (fact : Fact) (now : ℕ)
    (takeOver : Except TransportError Unit) :
    identity ∈ (p.handleConnectionEvent key (fact.event identity) now takeOver).sentInClear ↔
      identity ∈ p.sentInClear ∨ sentClear [fact] = true := by
  rw [show (p.handleConnectionEvent key (fact.event identity) now takeOver).sentInClear = _ from
    congrArg Prod.fst (signals_fact p key identity fact now takeOver)]
  cases fact <;> simp [sentClear]

/-- The identity, its member and what the host notes of it, after `said` was said. -/
structure Inv (holds : String → Prop) (identity key : String) (generation : ℕ)
    (transports : List MediaTransport) (said : List Fact) (since : String → Option (List Fact))
    (w : Watched) : Prop where
  kept : Kept holds identity key (fun kind => carries kind said = true) w.pool
  current : w.pool.isCurrent key generation = true
  backends : w.pool.transports = transports
  taken : w.pool.out = []
  clear : identity ∈ w.pool.sentInClear ↔ sentClear said = true
  shown : ∀ memberId, holds memberId → Shown memberId said (since memberId) w

/-- The snapshots are of members that `holds` says have the identity, and of others. -/
def OwnedIn (holds : String → Prop) (identity : String) (transports : List MediaTransport)
    (d : Delivery) : Prop :=
  match d.news with
  | .membership snapshot => Owned holds identity transports snapshot
  | .media _ => True

variable {transports : List MediaTransport} {said : List Fact}
  {since : String → Option (List Fact)} {w v : Watched}

theorem Inv.deliver (inv : Inv holds identity key generation transports said since w)
    {d : Delivery} (owned : OwnedIn holds identity transports d)
    (next : deliver key generation identity w d = some v) :
    Inv holds identity key generation transports (said ++ d.fact.toList)
      (fun memberId => noted memberId (since memberId) d) v := by
  obtain ⟨kept, current, backends, taken, clear, shown⟩ := inv
  obtain ⟨news, now, takeOver⟩ := d
  cases next
  cases news with
  | membership snapshot =>
      have owned : Owned holds identity w.pool.transports snapshot := backends ▸ owned
      rw [show said ++ Option.toList (Delivery.fact ⟨.membership snapshot, now, takeOver⟩) = said
        from List.append_nil said]
      have after := kept.applySnapshot owned
      have noted : Silent (snapshot.foldl MediaPool.joinMember (w.pool.forgetDeparted snapshot))
          (w.pool.applySnapshot snapshot) :=
        Silent.trans (q := { snapshot.foldl MediaPool.joinMember
          (w.pool.forgetDeparted snapshot) with membersSnapshot := snapshot }) ⟨rfl⟩
          silent_reconcilePool
      refine ⟨after.of_place after.attributed.take rfl rfl,
        isCurrent_applySnapshot current snapshot, ?_, rfl, ?_, fun memberId is_holder => ?_⟩
      · exact (PoolAttribution.transports_applySnapshot kept.attributed snapshot).trans backends
      · refine Iff.trans (iff_of_eq (congrArg (identity ∈ ·) ?_)) clear
        refine noted.clear.trans ?_
        rw [(signals_joinAll snapshot _).1, (silent_forgetDeparted snapshot).clear]
      · exact (shown memberId is_holder).membership kept taken clear is_holder owned
  | media fact =>
      have handled : w.pool.perform ⟨.handle (.connection key generation (fact.event identity)),
          now, takeOver⟩ = w.pool.handleConnectionEvent key (fact.event identity) now takeOver :=
        if_pos current
      have moves := moves_handleConnectionEvent (p := w.pool) key (fact.event identity) now takeOver
      have after := kept.fact fact now takeOver
      rw [Delivery.input]
      dsimp only
      rw [handled]
      refine ⟨after.of_place after.attributed.take rfl rfl, ?_, moves.transports.trans backends,
        rfl, ?_, fun memberId is_holder => ?_⟩
      · have other : isLink (fact.event identity) = false := by cases fact <;> rfl
        have same := (calm_handleConnectionEvent (p := w.pool) other key now takeOver).beside.pool
        change (AList.lookup key (MediaPool.pool _)).any _ = true
        rw [same]
        exact current
      · change identity ∈ MediaPool.sentInClear _ ↔ sentClear (said ++ [fact]) = true
        rw [mem_clear_fact, clear, sentClear_append, Bool.or_eq_true]
      · exact (shown memberId is_holder).fact kept taken is_holder fact now takeOver

/-- After a run of deliveries everything they say has been noted. -/
theorem Inv.deliverAll {ds : List Delivery}
    (inv : Inv holds identity key generation transports said since w)
    (owned : ∀ d ∈ ds, OwnedIn holds identity transports d)
    (h : run (LateMembers.deliver key generation identity) w ds = some v) :
    Inv holds identity key generation transports (said ++ facts ds)
      (fun memberId => ds.foldl (noted memberId) (since memberId)) v := by
  induction ds generalizing w said since with
  | nil =>
      cases h
      rw [show said ++ facts [] = said from List.append_nil said]
      exact inv
  | cons d rest ih =>
      obtain ⟨u, first, later⟩ := run_cons.mp h
      have after := ih (inv.deliver (owned d (.head _)) first)
        (fun other there => owned other (.tail _ there)) later
      have split_ : facts (d :: rest) = d.fact.toList ++ facts rest := by
        unfold facts
        cases fact : d.fact <;> simp [fact]
      rw [split_, ← List.append_assoc]
      exact after

/-- The connection is up, and nobody has had the identity. -/
structure Beginning (holds : String → Prop) (identity key : String) (generation : ℕ)
    (w : Watched) : Prop where
  reached : ∃ config inputs, run step (start config) inputs = some w
  unheard : Unheard holds identity w
  current : w.pool.isCurrent key generation = true

theorem Beginning.inv (h : Beginning holds identity key generation w) :
    Inv holds identity key generation w.pool.transports [] (fun _ => none) w := by
  obtain ⟨⟨config, inputs, reached⟩, ⟨unmapped, unnamed, silent, encrypted, strangers⟩, current⟩ := h
  obtain ⟨attributed, taken⟩ : Attributed w.pool ∧ w.pool.out = [] := by
    refine run_invariant_of_step (I := fun w => Attributed w.pool ∧ w.pool.out = [])
      (fun w input v inv next => ?_) ⟨attributed_new config, rfl⟩ reached
    cases next
    exact ⟨(inv.1.perform input).take, rfl⟩
  have empty (t : KindTrack) : t ∉ mediaAt w.pool identity := by
    rw [mem_mediaAt_of_none unmapped, silent]
    exact List.not_mem_nil
  refine
    { kept :=
        { attributed := attributed
          placed :=
            { named := fun has => absurd has (unnamed _)
              buffer := fun _ => silent
              kinds := fun kind => iff_of_false (fun ⟨_, there⟩ => empty _ there)
                Bool.false_ne_true
              keyed := fun t there => absurd there (empty t) }
          held := fun is_holder there => absurd there (strangers _ is_holder).1
          holder := fun mapped => nomatch unmapped.symm.trans mapped }
      current := current
      backends := rfl
      taken := taken
      clear := iff_of_false encrypted Bool.false_ne_true
      shown := fun memberId is_holder => ?_ }
  obtain ⟨unknown, blank⟩ := strangers memberId is_holder
  have absent : memberId ∉ w.roster.participants := by
    rw [mem_of_note, blank]
    exact Bool.false_ne_true
  exact
    { joined := iff_of_false absent unknown
      clean := fun _ => blank
      present := iff_of_false Bool.false_ne_true absent
      streams := fun there => absurd there absent
      clear := fun there => absurd there absent
      states := fun _ is_last => nomatch is_last }

end

/-- Wherever in the events of an identity the snapshots come, the host shows of its member at
the end the kinds of stream that the events leave and whether they sent in the clear, and how
frames decrypt as it was said since the member was last added. -/
theorem late_member_shown {holds : String → Prop} {identity key : String} {generation : ℕ}
    {w t : Watched} {ds : List Delivery} (begun : Beginning holds identity key generation w)
    (owned : ∀ d ∈ ds, OwnedIn holds identity w.pool.transports d)
    (h : run (deliver key generation identity) w ds = some t) {memberId : String}
    (is_holder : holds memberId) {since : List Fact}
    (present : sinceAdded memberId ds = some since) :
    ∃ view ∈ t.roster.view memberId,
      (∀ kind, (∃ stream ∈ view.streams, stream.kind = kind) ↔ carries kind (facts ds) = true) ∧
        view.sentInClear = sentClear (facts ds) ∧ view.encryption = lastState since := by
  obtain ⟨kept, -, -, -, -, shown⟩ := begun.inv.deliverAll owned h
  have shown := shown memberId is_holder
  have there : memberId ∈ t.roster.participants := shown.present.mp (Option.isSome_of_mem present)
  obtain ⟨streams, found⟩ := Option.isSome_iff_exists.mp (AList.lookup_isSome.mpr there)
  have mapped := kept.held is_holder (shown.joined.mp there)
  refine ⟨_, (congrArg (Option.map _) found : t.roster.view memberId = _), fun kind => ?_, ?_,
    shown.states since present⟩
  · have kinds := kept.placed.kinds kind
    simp only [mem_mediaAt_of_some mapped, kept.placed.buffer mapped, Option.getD_none,
      List.not_mem_nil, false_or] at kinds
    rw [← Option.isSome_iff_exists, AList.lookup_isSome, ← shown.streams there kind] at kinds
    refine Iff.trans ?_ kinds
    simp [Roster.Shows, found]
  · rw [Bool.eq_iff_iff, List.contains_iff_mem]
    exact shown.clear there

/-- Alice's own connection is up, and nothing was heard of Bob. -/
def adopted : Watched :=
  ⟨((MediaPool.new aliceConfig).adoptOwnConnection "https://a.x" 1).take.1, .empty⟩

def bobOnA : JoinedMembership := bobNaming [jwtTransport "https://a.x"]

theorem adopted_begins : Beginning (· = "bob-1") "@bob:x:DEVICE" "https://a.x" 1 adopted where
  reached := ⟨aliceConfig, [⟨.adoptOwnConnection "https://a.x" 1, 0, .ok ()⟩], rfl⟩
  unheard :=
    { unmapped := rfl
      unnamed := fun _ named => nomatch named
      silent := rfl
      encrypted := List.not_mem_nil
      strangers := fun _ _ => ⟨List.not_mem_nil, rfl⟩ }
  current := rfl

theorem bob_owned {snapshot : List JoinedMembership} (only : ∀ member ∈ snapshot, member = bobOnA) :
    Owned (· = "bob-1") "@bob:x:DEVICE" adopted.pool.transports snapshot where
  identities member there := by
    rw [only member there]
    exact iff_of_true (by decide +kernel) rfl
  alone member there other otherThere _ _ := by rw [only member there, only other otherThere]

def membership (snapshot : List JoinedMembership) : Delivery := ⟨.membership snapshot, 0, .ok ()⟩

def media (fact : Fact) : Delivery := ⟨.media fact, 0, .ok ()⟩

/-- Bob's camera comes before his membership, and is there again after it lapsed. -/
def lapsing : List Delivery :=
  [media (.trackAdded .camera 7), membership [bobOnA], media (.trackNotEncrypted .microphone),
    membership [], media (.trackAdded .screenShare 8), membership [bobOnA],
    media (.encryptionStateChanged .ok), media (.trackRemoved .screenShare)]

theorem late_member_shown_lapsing :
    ∃ t, run (deliver "https://a.x" 1 "@bob:x:DEVICE") adopted lapsing = some t ∧
      ∃ view ∈ t.roster.view "bob-1",
        (∀ kind, (∃ stream ∈ view.streams, stream.kind = kind) ↔
          carries kind (facts lapsing) = true) ∧
        view.sentInClear = sentClear (facts lapsing) ∧
          view.encryption = lastState
            [.encryptionStateChanged .ok, .trackRemoved .screenShare] := by
  have reaches : (run (deliver "https://a.x" 1 "@bob:x:DEVICE") adopted lapsing).isSome := by
    decide +kernel
  obtain ⟨t, reached⟩ := Option.isSome_iff_exists.mp reaches
  refine ⟨t, reached, late_member_shown adopted_begins ?_ reached rfl (by decide +kernel)⟩
  simp only [lapsing, List.forall_mem_cons, List.not_mem_nil, false_imp_iff, implies_true, and_true]
  exact ⟨trivial, bob_owned (by simp), trivial, bob_owned (by simp), trivial, bob_owned (by simp),
    trivial, trivial⟩

/-- That a part of what the host shows of a member at the end depends on what was said alone,
and not on where in it the snapshots came. -/
def SaidAlone {α : Type} (part : View → α) : Prop :=
  ∀ (holds : String → Prop) (identity key : String) (generation : ℕ) (w t u : Watched)
    (ds es : List Delivery) (memberId : String),
    Beginning holds identity key generation w →
    (∀ d ∈ ds, OwnedIn holds identity w.pool.transports d) →
    (∀ e ∈ es, OwnedIn holds identity w.pool.transports e) →
    run (deliver key generation identity) w ds = some t →
    run (deliver key generation identity) w es = some u → holds memberId →
    (sinceAdded memberId ds).isSome → (sinceAdded memberId es).isSome → facts ds = facts es →
    (t.roster.view memberId).map part = (u.roster.view memberId).map part

theorem SaidAlone.alike {α : Type} {part : View → α} (h : SaidAlone part) (ds es : List Delivery)
    (owned : ∀ d ∈ ds ++ es, OwnedIn (· = "bob-1") "@bob:x:DEVICE" adopted.pool.transports d)
    (reaches : (run (deliver "https://a.x" 1 "@bob:x:DEVICE") adopted ds).isSome ∧
      (run (deliver "https://a.x" 1 "@bob:x:DEVICE") adopted es).isSome)
    (present : (sinceAdded "bob-1" ds).isSome ∧ (sinceAdded "bob-1" es).isSome)
    (same : facts ds = facts es) :
    (((run (deliver "https://a.x" 1 "@bob:x:DEVICE") adopted ds).get reaches.1).roster.view
        "bob-1").map part =
      (((run (deliver "https://a.x" 1 "@bob:x:DEVICE") adopted es).get reaches.2).roster.view
        "bob-1").map part :=
  h _ _ _ _ adopted _ _ ds es "bob-1" adopted_begins
    (fun d there => owned d (List.mem_append_left es there))
    (fun e there => owned e (List.mem_append_right ds there))
    (Option.some_get reaches.1).symm (Option.some_get reaches.2).symm rfl present.1 present.2 same

/-- What a membership that arrives late does not show: how frames decrypt, which was told of
nobody, and that a stream is muted. -/
theorem late_member_differs : ¬ SaidAlone View.encryption ∧ ¬ SaidAlone View.streams := by
  have there : Owned (· = "bob-1") "@bob:x:DEVICE" adopted.pool.transports [bobOnA] :=
    bob_owned fun member there => List.mem_singleton.mp there
  constructor
  · intro h
    have same := h.alike
      [membership [bobOnA], media (.encryptionStateChanged .missingKey)]
      [media (.encryptionStateChanged .missingKey), membership [bobOnA]]
      (by simpa [OwnedIn, membership, media] using there)
      (by decide +kernel) (by decide +kernel) rfl
    exact absurd same (by decide +kernel)
  · intro h
    have same := h.alike
      [membership [bobOnA], media (.trackAdded .microphone 7), media (.trackMuted .microphone)]
      [media (.trackAdded .microphone 7), media (.trackMuted .microphone), membership [bobOnA]]
      (by simpa [OwnedIn, membership, media] using there)
      (by decide +kernel) (by decide +kernel) rfl
    exact absurd same (by decide +kernel)

end MatrixRtc.LateMembers

import MatrixRtc.PoolConstraints
import MatrixRtc.RosterMembers

/-!
# The constraints of a stream and the connection that carries it

The host says how a member's stream is wanted, and the pool tells a connection. Which one it
tells is decided by the membership, and which one carries the stream by where its track came
from. The connection that carries a stream has been told what is wanted of it now in every run
in which the two are one connection whenever it is told, and no others share its identity.
-/
namespace MatrixRtc.StreamConstraints
open MemberEvents MediaTransports Tables MediaPools PoolMoves PoolMembers PoolSteps
open PoolConstraints HostRosters CallEngines EngineStreams EngineSnapshots StepRuns

/-- A connection as its events come: the key of its entry, and the entry's generation. -/
abbrev Session := String × ℕ

/-- The handle of a connection that is up. -/
def handleOf (p : MediaPool) (session : Session) : Option ℕ :=
  ((p.pool.lookup session.1).filter (·.generation == session.2)).bind connectionOf

/-- A connection's report of a track. -/
structure TrackWord where
  session : Session
  identity : String
  kind : MediaStreamKind
  track : ℕ

def trackWord : Turn → Option TrackWord
  | .pool (.connection key generation (.trackAdded identity kind track)) =>
      some ⟨(key, generation), identity, kind, track⟩
  | _ => none

/-- The connection that a turn reports to be reconnected. -/
def reconnection : Turn → Option Session
  | .pool (.connection key generation .reconnected) => some (key, generation)
  | _ => none

/-- The debounce timer that a turn brings. -/
def debounce : Turn → Option (Stream × ℕ)
  | .pool (.applyConstraints memberId kind generation) => some ((memberId, kind), generation)
  | _ => none

/-- What a turn calls of the pool before anything else; constraints are set without telling
any connection. -/
def callOf : Turn → Option Call
  | .signalling reachable => some (.setSignallingReachable reachable)
  | .memberships snapshot => some (.applySnapshot snapshot)
  | .pool message => some (.handle message)
  | .message (.adoptConnection key connection) => some (.adoptOwnConnection key connection)
  | .message (.connectOwn key connection) => some (.connectOwn key connection)
  | .message (.keyImported identity keyIndex) => some (.keyImported identity keyIndex)
  | _ => none

/-- The message that a task sends when its time has come. -/
def sends : Spawned → Message → Bool
  | .connect key attempt, .connectFinished key' attempt' _ => key == key' && attempt == attempt'
  | .retryConnect key attempt _, .retryConnect key' attempt' => key == key' && attempt == attempt'
  | .closeIfIdle key generation _, .closeIfIdle key' generation' =>
      key == key' && generation == generation'
  | .applyConstraints memberId kind generation _, .applyConstraints memberId' kind' generation' =>
      memberId == memberId' && kind == kind' && generation == generation'
  | .ownAttempt _ attempt _, .ownConnectFinished attempt' _ => attempt == attempt'
  | .ownRetry attempt _, .ownRetry attempt' => attempt == attempt'
  | .ownBudget epoch _, .ownBudget epoch' => epoch == epoch'
  | .ownFinalAttempt epoch _, .ownFinalAttemptExpired epoch' => epoch == epoch'
  | .ownFallback epoch _, .ownFallback epoch' => epoch == epoch'
  | _, _ => false

/-- The task sends a message. -/
def isAwaited : Spawned → Bool
  | .close _ | .forward _ _ | .constrain _ _ _ _ => false
  | _ => true

/-- What a task tells the connection of a participant's stream. -/
def tells (connection : Option ℕ) (identity : Option String) (kind : MediaStreamKind) :
    Spawned → Option ResolvedConstraints
  | .constrain connection' identity' kind' resolved =>
      if connection = some connection' ∧ identity = some identity' ∧ kind' = kind then
        some resolved
      else none
  | _ => none

/-- An actor; the connection that each track came over; what was last told of each stream over
that connection, since the track was added and since the connection last reconnected; the tasks
whose messages are still to come; and the streams that the host has set constraints for while
their member was there. -/
structure Watched where
  actor : Actor
  over_ : ℕ → Option Session
  applied : Stream → Option ResolvedConstraints
  pending : List Spawned
  asked : List Stream

def start (config : PoolConfig) : Watched := ⟨.new config, fun _ => none, fun _ => none, [], []⟩

namespace Watched

variable (w : Watched) (turn : Turn) (t : Answers)

abbrev pool : MediaPool := w.actor.pool

/-- The pool after the call that a turn starts with. -/
def called : MediaPool :=
  match callOf turn with
  | some call => w.pool.perform ⟨call, t.now, t.takeOver⟩
  | none => w.pool

def overAfter : ℕ → Option Session :=
  match trackWord turn with
  | some word =>
      if w.pool.isCurrent word.session.1 word.session.2 then
        Function.update w.over_ word.track (some word.session)
      else w.over_
  | none => w.over_

/-- The stream has another track, or its connection has reconnected. -/
def renewed (s : Stream) : Bool :=
  (((w.called turn t).tracks.lookup s).map (·.track) != (w.pool.tracks.lookup s).map (·.track)) ||
    (reconnection turn).any fun session =>
      w.pool.isCurrent session.1 session.2 &&
        (((w.called turn t).tracks.lookup s).bind fun pooled => w.over_ pooled.track) ==
          some session

/-- What was last told of a stream, with the tasks that a turn has started. -/
def appliedAfter (started : List Spawned) (s : Stream) : Option ResolvedConstraints :=
  let q := w.called turn t
  let connection := (q.tracks.lookup s).bind fun pooled =>
    (w.overAfter turn pooled.track).bind (handleOf q)
  (started.filterMap (tells connection (q.memberIdentities.lookup s.1) s.2)).getLast?.or
    (if w.renewed turn t s then none else w.applied s)

def pendingAfter (started : List Spawned) : List Spawned :=
  (match turn with
  | .pool message => w.pending.eraseP (sends · message)
  | _ => w.pending) ++ started.filter isAwaited

def askedAfter : List Stream :=
  match turn with
  | .memberships snapshot => w.asked.filter fun s => (snapshot.map (·.memberId)).contains s.1
  | .message (.setConstraints memberId kind _) =>
      if (idsOf w.actor.roster).contains memberId then (memberId, kind) :: w.asked else w.asked
  | _ => w.asked

end Watched

/-- A turn; a track comes over one connection. -/
def step (w : Watched) (input : Turn × Answers) : Option Watched :=
  if ∀ word ∈ trackWord input.1, w.pool.isCurrent word.session.1 word.session.2 = true →
      ∀ session ∈ w.over_ word.track, session = word.session then
    let actor := w.actor.turn input.1 input.2
    let started := actor.tasks.drop w.actor.tasks.length
    some
      { actor := actor
        over_ := w.overAfter input.1
        applied := w.appliedAfter input.1 input.2 started
        pending := w.pendingAfter input.1 started
        asked := w.askedAfter input.1 }
  else none

/-- Once nothing is awaited, the connection of each stream that the host has set constraints
for was last told what the host last set, as a probe has it while the member's frames fail. -/
def Right (w : Watched) : Prop :=
  w.pending = [] → ∀ s ∈ w.asked, s ∈ w.pool.tracks →
    ∃ constraints ∈ w.actor.hostConstraints.lookup s,
      w.applied s = some ((probeUndecryptable s.2 constraints
        (w.actor.isUndecryptable s.1)).resolve s.2)

/-- What is told of a member's streams goes over the connection. -/
def Reaches (p : MediaPool) (memberId : String) (session : Option Session) : Prop :=
  (target p memberId).isSome = true ∧ target p memberId = session.bind (handleOf p)

/-- A timer stands that will tell of the stream as it is stored. -/
def armed (pending : List Spawned) (s : Stream) (generation : ℕ) : Bool :=
  pending.any fun task => sends task (.applyConstraints s.1 s.2 generation)

/-- No timer stands that will tell of the stream again. -/
def Untimed (w : Watched) (s : Stream) : Prop :=
  ∀ stored ∈ w.pool.constraints.lookup s, armed w.pending s stored.2 = false

instance (p : MediaPool) (memberId : String) (session : Option Session) :
    Decidable (Reaches p memberId session) := inferInstanceAs (Decidable (_ ∧ _))

instance (w : Watched) (s : Stream) : Decidable (Untimed w s) :=
  inferInstanceAs (Decidable (∀ stored ∈ w.pool.constraints.lookup s, _))

/-- The pool once a reconnect is noted, before it tells the connection again. -/
def reapplying (p : MediaPool) (key : String) (t : Answers) : MediaPool :=
  ((if p.ownConnectionKey = some key then p.endOwnLoss else p).clearDegraded key).peerUp key t.now
    t.takeOver

/-- The members that a turn says there are. -/
def membersOf : Turn → Option (List JoinedMembership)
  | .memberships snapshot => some snapshot
  | _ => none

/-- A new track of a stream comes over the connection that lists its member first. -/
def TrackCarried (w : Watched) (turn : Turn) : Prop :=
  ∀ word ∈ trackWord turn, w.pool.isCurrent word.session.1 word.session.2 = true →
    ∀ memberId ∈ w.pool.identityMap.lookup word.identity,
      (memberId, word.kind) ∈ w.asked → Untimed w (memberId, word.kind) →
        (w.pool.tracks.lookup (memberId, word.kind)).any (·.track == word.track) = false →
          Reaches w.pool memberId (some word.session)

/-- After the debounce, the connection of a stream is the one that lists its member first. -/
def TimerCarried (w : Watched) (turn : Turn) : Prop :=
  ∀ timer ∈ debounce turn, timer.1 ∈ w.asked →
    (w.pool.constraints.lookup timer.1).any (·.2 == timer.2) = true →
      ∀ pooled ∈ w.pool.tracks.lookup timer.1, Reaches w.pool timer.1.1 (w.over_ pooled.track)

/-- A connection that has reconnected lists first the members of the streams it carries. -/
def ReconnectCarried (w : Watched) (turn : Turn) (t : Answers) : Prop :=
  ∀ session ∈ reconnection turn, w.pool.isCurrent session.1 session.2 = true →
    ∀ s ∈ w.asked, Untimed w s →
      ∀ pooled ∈ w.pool.tracks.lookup s, w.over_ pooled.track = some session →
        ((reapplying w.pool session.1 t).pool.lookup session.1).any
            (·.members.contains s.1) = true ∧
          Reaches (reapplying w.pool session.1 t) s.1 (some session)

/-- Nobody joins under the identity of another, and whenever a stream is to be told of, it is
told to the connection that carries it. -/
def Carried (w : Watched) (input : Turn × Answers) : Prop :=
  (∀ snapshot ∈ membersOf input.1, Distinct w.pool snapshot) ∧
    TrackCarried w input.1 ∧ TimerCarried w input.1 ∧ ReconnectCarried w input.1 input.2

instance (w : Watched) (turn : Turn) : Decidable (TrackCarried w turn) :=
  inferInstanceAs (Decidable (∀ word ∈ trackWord turn, _ → _))

instance (w : Watched) (turn : Turn) : Decidable (TimerCarried w turn) :=
  inferInstanceAs (Decidable (∀ timer ∈ debounce turn, _ → _ → _))

instance (w : Watched) (turn : Turn) (t : Answers) : Decidable (ReconnectCarried w turn t) :=
  inferInstanceAs (Decidable (∀ session ∈ reconnection turn, _ → ∀ s ∈ w.asked, _))

instance (w : Watched) (input : Turn × Answers) : Decidable (Carried w input) :=
  inferInstanceAs (Decidable (_ ∧ _ ∧ _ ∧ _))

section
variable {w : Watched} {a b c : Actor} {t : Answers}

theorem of_tells {connection : Option ℕ} {identity : Option String} {kind : MediaStreamKind}
    {task : Spawned} {resolved : ResolvedConstraints}
    (h : tells connection identity kind task = some resolved) :
    ∃ connection' identity', connection = some connection' ∧ identity = some identity' ∧
      task = .constrain connection' identity' kind resolved := by
  unfold tells at h
  split at h
  · split_ifs at h with same
    obtain ⟨is_connection, is_identity, rfl⟩ := same
    cases h
    exact ⟨_, _, is_connection, is_identity, rfl⟩
  · cases h

/-- A task that tells no connection anything. -/
def Silent (task : Spawned) : Prop :=
  ∀ connection identity kind resolved, task ≠ .constrain connection identity kind resolved

theorem tells_silent {connection : Option ℕ} {identity : Option String} {kind : MediaStreamKind}
    {task : Spawned} (silent : Silent task) : tells connection identity kind task = none := by
  cases is_ : tells connection identity kind task with
  | none => rfl
  | some resolved =>
      obtain ⟨connection', identity', -, -, same⟩ := of_tells is_
      exact absurd same (silent _ _ _ _)

theorem getLast_or {α : Type} {xs : List α} {x : α} {before : Option α} (all : ∀ y ∈ xs, y = x)
    (h : xs ≠ [] ∨ before = some x) : xs.getLast?.or before = some x := by
  cases is_last : xs.getLast? with
  | none =>
      rw [List.getLast?_eq_none_iff] at is_last
      exact (h.resolve_left fun some_ => some_ is_last)
  | some y =>
      rw [all y (List.mem_of_getLast? is_last)]
      rfl

/-- What the pool is told of constraints is what the host asks for, probed. -/
def Stored (a : Actor) : Prop :=
  ∀ s : Stream, (a.pool.constraints.lookup s).map (·.1) =
    (a.hostConstraints.lookup s).map fun constraints =>
      probeUndecryptable s.2 constraints (a.isUndecryptable s.1)

/-- Nothing of the pool's is left to be taken. -/
def Clear (p : MediaPool) : Prop := p.out = [] ∧ p.spawned = []

/-- What is done that tells no connection anything: constraints that change have a timer. -/
structure Rearms (a b : Actor) : Prop where
  attribution : attributionOf b.pool = attributionOf a.pool
  tracks : b.pool.tracks = a.pool.tracks
  clear : Clear b.pool
  tasks : ∃ tasks, b.tasks = a.tasks ++ tasks ∧ (∀ task ∈ tasks, Silent task) ∧
    ∀ s : Stream, b.pool.constraints.lookup s = a.pool.constraints.lookup s ∨
      ∃ stored delay, b.pool.constraints.lookup s = some stored ∧
        .applyConstraints s.1 s.2 stored.2 delay ∈ tasks

/-- It leaves what the host has asked for alone. -/
structure Restates (a b : Actor) : Prop extends Rearms a b where
  hostConstraints : b.hostConstraints = a.hostConstraints
  stored : Stored a → Stored b

namespace Rearms

theorem of_same (clear : Clear a.pool) (pool : b.pool = a.pool) (tasks : b.tasks = a.tasks) :
    Rearms a b where
  attribution := by rw [pool]
  tracks := by rw [pool]
  clear := by rw [pool]; exact clear
  tasks := ⟨[], by rw [tasks, List.append_nil], by simp, fun s => .inl (by rw [pool])⟩

theorem trans (first : Rearms a b) (second : Rearms b c) : Rearms a c where
  attribution := second.attribution.trans first.attribution
  tracks := second.tracks.trans first.tracks
  clear := second.clear
  tasks := by
    obtain ⟨tasks, are, silent, timed⟩ := first.tasks
    obtain ⟨later, are', silent', timed'⟩ := second.tasks
    refine ⟨tasks ++ later, by rw [are', are, List.append_assoc], fun task there => ?_,
      fun s => ?_⟩
    · obtain there | there := List.mem_append.mp there
      · exact silent task there
      · exact silent' task there
    · obtain same | ⟨stored, delay, found, there⟩ := timed' s
      · rw [same]
        refine (timed s).imp_right ?_
        rintro ⟨stored, delay, found, there⟩
        exact ⟨stored, delay, found, List.mem_append_left _ there⟩
      · exact .inr ⟨stored, delay, found, List.mem_append_right _ there⟩

/-- The pool is told what a stream is asked for. -/
theorem pushConstraints (clear : Clear a.pool) (memberId : String) (undecryptable : Bool)
    (t : Answers) (stream : MediaStreamKind × MediaConstraints) :
    Rearms a (a.pushConstraints memberId undecryptable t stream) ∧
      ∀ s : Stream, ((a.pushConstraints memberId undecryptable t stream).pool.constraints.lookup
          s).map (·.1) =
        if s = (memberId, stream.1) then
          some (probeUndecryptable stream.1 stream.2 undecryptable)
        else (a.pool.constraints.lookup s).map (·.1) := by
  let generation := ((a.pool.constraints.lookup (memberId, stream.1)).map (·.2)).getD 0 + 1
  let constraints := a.pool.constraints.insert (memberId, stream.1)
    (probeUndecryptable stream.1 stream.2 undecryptable, generation)
  have after : (a.pushConstraints memberId undecryptable t stream).pool.constraints =
      constraints := rfl
  refine ⟨⟨rfl, rfl, ⟨rfl, rfl⟩, ?_⟩, fun s => ?_⟩
  · refine ⟨[.applyConstraints memberId stream.1 generation constraintsDebounce], ?_, ?_,
      fun s => ?_⟩
    · change a.tasks ++ (a.pool.spawned ++ _) = _
      rw [clear.2]
      rfl
    · simp [Silent]
    · rw [after]
      by_cases same : s = (memberId, stream.1)
      · subst same
        exact .inr ⟨_, constraintsDebounce, AList.lookup_insert _, .head _⟩
      · exact .inl (AList.lookup_insert_ne same)
  · rw [after]
    split_ifs with same
    · subst same
      rw [AList.lookup_insert]
      rfl
    · rw [AList.lookup_insert_ne same]

/-- It is told what several streams of a member are asked for. -/
theorem pushAll (clear : Clear a.pool) (memberId : String) (undecryptable : Bool) (t : Answers)
    (streams : List (MediaStreamKind × MediaConstraints)) :
    Rearms a (streams.foldl (fun b stream => b.pushConstraints memberId undecryptable t stream) a) ∧
      ∀ s : Stream, ∀ value, (∀ c, s.1 = memberId → (s.2, c) ∈ streams →
          some (probeUndecryptable s.2 c undecryptable) = value) →
        ((s.1 = memberId ∧ ∃ c, (s.2, c) ∈ streams) ∨
            (a.pool.constraints.lookup s).map (·.1) = value) →
          ((streams.foldl (fun b stream => b.pushConstraints memberId undecryptable t stream)
            a).pool.constraints.lookup s).map (·.1) = value := by
  induction streams generalizing a with
  | nil => exact ⟨.of_same clear rfl rfl, fun s value _ before => before.resolve_left (by simp)⟩
  | cons stream rest ih =>
      obtain ⟨first, are⟩ := pushConstraints clear memberId undecryptable t stream
      obtain ⟨later, folded⟩ := ih first.clear
      refine ⟨first.trans later, fun s value all before => ?_⟩
      refine folded s value (fun c is_member there => all c is_member (.tail _ there)) ?_
      rw [are s]
      by_cases same : s = (memberId, stream.1)
      · rw [if_pos same]
        subst same
        exact .inr (all stream.2 rfl (.head _))
      · rw [if_neg same]
        refine before.imp_left ?_
        rintro ⟨is_member, c, there⟩
        obtain head | tail := List.mem_cons.mp there
        · refine absurd ?_ same
          rw [← head, ← is_member]
        · exact ⟨is_member, c, tail⟩

/-- What closing the pool starts are closes. -/
theorem end_ (clear : Clear a.pool) (t : Answers) : Rearms a (a.end_ t) := by
  unfold Actor.end_
  split_ifs
  · exact .of_same clear rfl rfl
  · have closed (entries : List (Sigma fun _ : String => ManagedConnection)) (p : MediaPool) :
        ∃ tasks, entries.foldl (fun q e => q.closeEntry e.2) p =
          { p with spawned := p.spawned ++ tasks } ∧ ∀ task ∈ tasks, Silent task := by
      induction entries generalizing p with
      | nil => exact ⟨[], by rw [List.append_nil]; rfl, by simp⟩
      | cons e rest ih =>
          obtain ⟨tasks, are, silent⟩ := ih (p.closeEntry e.2)
          rw [List.foldl_cons, are]
          unfold MediaPool.closeEntry
          split
          · next connection _ =>
              refine ⟨.close connection :: tasks, ?_, ?_⟩
              · dsimp only [MediaPool.spawn]
                rw [List.append_assoc]
                rfl
              · simpa [Silent] using silent
          · exact ⟨tasks, rfl, silent⟩
          · exact ⟨tasks, rfl, silent⟩
    obtain ⟨tasks, are, silent⟩ := closed (a.pool.pool.entries.filter fun e => !e.2.isOwn)
      { a.pool with
        closed := true
        own := a.pool.own.map fun own => { own with epoch := own.epoch + 1, lostSince := none }
        pool := ∅ }
    have after : a.pool.perform ⟨.close, t.now, t.takeOver⟩ = _ := are
    unfold Actor.callPool
    dsimp only
    rw [after]
    refine ⟨rfl, rfl, ⟨rfl, rfl⟩, tasks, ?_, silent, fun s => .inl rfl⟩
    change a.tasks ++ (a.pool.spawned ++ tasks) = _
    rw [clear.2]
    rfl

end Rearms

namespace Restates

theorem of_same (clear : Clear a.pool) (pool : b.pool = a.pool) (tasks : b.tasks = a.tasks)
    (hostConstraints : b.hostConstraints = a.hostConstraints)
    (states : b.encryptionStates = a.encryptionStates) : Restates a b where
  toRearms := .of_same clear pool tasks
  hostConstraints := hostConstraints
  stored h := by
    unfold Stored Actor.isUndecryptable
    rw [pool, hostConstraints, states]
    exact h

theorem trans (first : Restates a b) (second : Restates b c) : Restates a c where
  toRearms := first.toRearms.trans second.toRearms
  hostConstraints := second.hostConstraints.trans first.hostConstraints
  stored h := second.stored (first.stored h)

theorem of_restreams {memberId : String} {change : List StreamState → List StreamState}
    (clear : Clear a.pool) (h : Restreams a b memberId change) : Restates a b :=
  .of_same clear ((congrArg Actor.pool h.rest).trans rfl) ((congrArg Actor.tasks h.rest).trans rfl)
    ((congrArg Actor.hostConstraints h.rest).trans rfl)
    ((congrArg Actor.encryptionStates h.rest).trans rfl)

theorem end_ (clear : Clear a.pool) (t : Answers) : Restates a (a.end_ t) := by
  have rearms := Rearms.end_ clear t
  obtain ⟨pool, tasks, changed⟩ := end_changes a t
  refine { toRearms := rearms, hostConstraints := by rw [changed], stored := fun h s => ?_ }
  have same : (a.end_ t).pool.constraints = a.pool.constraints := by
    unfold Actor.end_
    split_ifs
    · rfl
    · exact (passes_of_steps (@steps_close a.pool)).constraints
  rw [same, h s, changed]
  rfl

theorem mem_constraintsOf {memberId : String} {kind : MediaStreamKind}
    {constraints : MediaConstraints} :
    (kind, constraints) ∈ a.constraintsOf memberId ↔
      a.hostConstraints.lookup (memberId, kind) = some constraints := by
  unfold Actor.constraintsOf
  rw [lookup_eq_some_iff, List.mem_map]
  constructor
  · rintro ⟨⟨⟨other, kind'⟩, value⟩, there, same⟩
    cases same
    obtain ⟨at_, is_member⟩ := List.mem_filter.mp there
    cases beq_iff_eq.mp is_member
    exact at_
  · intro there
    exact ⟨_, List.mem_filter.mpr ⟨there, beq_iff_eq.mpr rfl⟩, rfl⟩

/-- A member's frames begin or cease to fail: what is stored for its streams is probed, or as
the host has it. -/
theorem encryptionStateChanged (clear : Clear a.pool) (memberId : String)
    (state : FrameEncryptionState) (t : Answers) :
    Restates a (a.encryptionStateChanged memberId state t) := by
  obtain ⟨pool, tasks, changed⟩ := encryptionStateChanged_changes a memberId state t
  have failing (other : String) : (a.encryptionStateChanged memberId state t).isUndecryptable other =
      if other = memberId then isFailure state else a.isUndecryptable other := by
    rw [changed]
    unfold Actor.isUndecryptable
    dsimp only
    split_ifs with same
    · rw [same, AList.lookup_insert, Option.any_some]
    · rw [AList.lookup_insert_ne same]
  have host : (a.encryptionStateChanged memberId state t).hostConstraints = a.hostConstraints := by
    rw [changed]
  let noted : Actor := { a with encryptionStates := a.encryptionStates.insert memberId state }
  let streams := noted.constraintsOf memberId
  let pushed := streams.foldl
    (fun b stream => b.pushConstraints memberId (isFailure state) t stream) noted
  have is_pool : (a.encryptionStateChanged memberId state t).pool =
      (if a.isUndecryptable memberId != isFailure state then pushed else noted).pool := rfl
  have are : (a.encryptionStateChanged memberId state t).tasks =
      (if a.isUndecryptable memberId != isFailure state then pushed else noted).tasks := rfl
  by_cases crossed : (a.isUndecryptable memberId != isFailure state) = true
  · obtain ⟨rearms, folded⟩ := @Rearms.pushAll noted clear memberId (isFailure state) t streams
    rw [if_pos crossed] at is_pool are
    have noted_ : Rearms a noted := .of_same clear rfl rfl
    refine
      { toRearms := (noted_.trans rearms).trans (.of_same rearms.clear is_pool are)
        hostConstraints := host
        stored := fun h s => ?_ }
    rw [is_pool, host, failing]
    refine folded s _ (fun c is_member there => ?_) ?_
    · have asked : a.hostConstraints.lookup s = some c := by
        rw [show s = (memberId, s.2) from Prod.ext is_member rfl]
        exact mem_constraintsOf.mp there
      rw [asked, if_pos is_member, Option.map_some]
    · by_cases is_member : s.1 = memberId
      · cases asked : a.hostConstraints.lookup s with
        | some c =>
            refine .inl ⟨is_member, c, mem_constraintsOf.mpr ?_⟩
            rw [← is_member]
            exact asked
        | none =>
            right
            rw [show noted.pool.constraints.lookup s = a.pool.constraints.lookup s from rfl, h s,
              asked]
            rfl
      · right
        rw [if_neg is_member]
        exact h s
  · rw [if_neg crossed] at is_pool are
    refine
      { toRearms := .of_same clear is_pool are, hostConstraints := host, stored := fun h s => ?_ }
    rw [is_pool, host, failing, show noted.pool.constraints.lookup s =
      a.pool.constraints.lookup s from rfl, h s]
    split_ifs with is_member
    · have same : a.isUndecryptable memberId = isFailure state := by simpa using crossed
      rw [is_member, same]
    · rfl

theorem applyPoolEvent (clear : Clear a.pool) (t : Answers) (event : PoolEvent) :
    Restates a (a.applyPoolEvent t event) := by
  cases event with
  | streamAdded memberId kind => exact of_restreams clear (restreams_addStream a memberId kind)
  | streamRemoved memberId kind =>
      exact of_restreams clear (restreams_removeStream a memberId kind)
  | streamMuted memberId kind muted =>
      exact of_restreams clear (restreams_setMemberMuted a memberId kind muted)
  | encryptionStateChanged memberId state => exact encryptionStateChanged clear memberId state t
  | ownConnectionLost reason message => exact end_ clear t
  | _ => exact of_same clear rfl rfl rfl rfl

theorem applyPoolEvents (clear : Clear a.pool) (t : Answers) (events : List PoolEvent) :
    Restates a (a.applyPoolEvents t events) := by
  unfold Actor.applyPoolEvents
  induction events generalizing a with
  | nil => exact of_same clear rfl rfl rfl rfl
  | cons event rest ih =>
      have first := applyPoolEvent clear t event
      exact first.trans (ih first.clear)

end Restates

/-- What holds between turns. -/
structure Inv (w : Watched) : Prop where
  base : RosterEvents.Inv w.actor
  alone : Alone w.pool
  clear : Clear w.pool
  stored : Stored w.actor
  asked : ∀ s ∈ w.asked, s.1 ∈ idsOf w.actor.roster ∧
    (w.actor.hostConstraints.lookup s).isSome = true
  owed : ∀ s ∈ w.asked, s ∈ w.pool.tracks → ∀ stored ∈ w.pool.constraints.lookup s,
    armed w.pending s stored.2 = true ∨ w.applied s = some (stored.1.resolve s.2)

/-- What the call of a turn leaves of a stream. -/
structure Stays (w : Watched) (turn : Turn) (t : Answers) (s : Stream) : Prop where
  identity : (w.called turn t).memberIdentities.lookup s.1 = w.pool.memberIdentities.lookup s.1
  constraints : (w.called turn t).constraints.lookup s = w.pool.constraints.lookup s
  tracks : ∀ pooled, (w.called turn t).tracks.lookup s = some pooled →
    w.pool.tracks.lookup s = some pooled ∨
      ∃ call, callOf turn = some call ∧ Brings w.pool call s pooled
  faithful : Faithful w.pool (w.called turn t).spawned s

variable {turn : Turn} {s : Stream} {started later : List Spawned}

theorem of_sends {task : Spawned} {generation : ℕ} {message : Message}
    (sent : sends task (.applyConstraints s.1 s.2 generation) = true)
    (sent' : sends task message = true) : message = .applyConstraints s.1 s.2 generation := by
  cases task with
  | applyConstraints memberId kind generation' delay =>
      cases message with
      | applyConstraints memberId' kind' generation'' =>
          simp only [sends, Bool.and_eq_true, beq_iff_eq] at sent sent'
          obtain ⟨⟨rfl, rfl⟩, rfl⟩ := sent
          obtain ⟨⟨rfl, rfl⟩, rfl⟩ := sent'
          rfl
      | _ => cases sent'
  | _ => cases sent

theorem armed_pendingAfter {generation : ℕ} (stands : armed w.pending s generation = true)
    (other : debounce turn ≠ some (s, generation)) :
    armed (w.pendingAfter turn started) s generation = true := by
  obtain ⟨task, there, sent⟩ := List.any_eq_true.mp stands
  refine List.any_eq_true.mpr ⟨task, List.mem_append_left _ ?_, sent⟩
  cases turn with
  | pool message =>
      refine (List.mem_eraseP_of_neg fun sent' => other ?_).mpr there
      rw [of_sends sent sent']
      rfl
  | _ => exact there

theorem armed_started {generation delay : ℕ}
    (there : .applyConstraints s.1 s.2 generation delay ∈ started) :
    armed (w.pendingAfter turn started) s generation = true := by
  refine List.any_eq_true.mpr
    ⟨_, List.mem_append_right _ (List.mem_filter.mpr ⟨there, rfl⟩), ?_⟩
  simp [sends]

theorem tasks_filterMap {connection : Option ℕ} {identity : Option String}
    {kind : MediaStreamKind} {tasks : List Spawned} (silent : ∀ task ∈ later, Silent task) :
    (tasks ++ later).filterMap (tells connection identity kind) =
      tasks.filterMap (tells connection identity kind) := by
  rw [List.filterMap_append, List.filterMap_eq_nil_iff.mpr fun task there =>
    tells_silent (silent task there), List.append_nil]

/-- What was last told of a stream is what is stored: it is told now, or it was told before and
nothing was renewed. -/
theorem appliedAfter_of (stays : Stays w turn t s) (silent : ∀ task ∈ later, Silent task)
    {stored : MediaConstraints × ℕ} (found : w.pool.constraints.lookup s = some stored)
    (h : (∃ connection identity, w.pool.memberIdentities.lookup s.1 = some identity ∧
        ((w.called turn t).tracks.lookup s).bind (fun pooled =>
          (w.overAfter turn pooled.track).bind (handleOf (w.called turn t))) = some connection ∧
        .constrain connection identity s.2 (stored.1.resolve s.2) ∈ (w.called turn t).spawned) ∨
      w.renewed turn t s = false ∧ w.applied s = some (stored.1.resolve s.2)) :
    w.appliedAfter turn t ((w.called turn t).spawned ++ later) s =
      some (stored.1.resolve s.2) := by
  unfold Watched.appliedAfter
  extract_lets q connection
  rw [tasks_filterMap silent]
  refine getLast_or (fun resolved told => ?_) ?_
  · obtain ⟨task, there, is_⟩ := List.mem_filterMap.mp told
    obtain ⟨connection', identity, -, mapped, rfl⟩ := of_tells is_
    rw [stays.identity] at mapped
    exact stays.faithful there mapped stored found
  · refine h.imp ?_ ?_
    · rintro ⟨connection', identity, mapped, is_connection, there⟩ nothing
      have told := List.filterMap_eq_nil_iff.mp nothing _ there
      rw [tells, if_pos ⟨is_connection, stays.identity.trans mapped, rfl⟩] at told
      cases told
    · rintro ⟨same, before⟩
      rw [same]
      exact before

theorem Reaches.exists {p : MediaPool} {memberId : String} {session : Option Session}
    (h : Reaches p memberId session) :
    ∃ connection, target p memberId = some connection ∧
      session.bind (handleOf p) = some connection := by
  obtain ⟨connection, is_target⟩ := Option.isSome_iff_exists.mp h.1
  exact ⟨connection, is_target, h.2.symm.trans is_target⟩

/-- The tasks of the turn have the push of a stream to the connection that carries it. -/
def ToldNow (w : Watched) (turn : Turn) (t : Answers) (s : Stream)
    (resolved : ResolvedConstraints) : Prop :=
  ∃ connection identity, w.pool.memberIdentities.lookup s.1 = some identity ∧
    ((w.called turn t).tracks.lookup s).bind (fun pooled =>
      (w.overAfter turn pooled.track).bind (handleOf (w.called turn t))) = some connection ∧
    .constrain connection identity s.2 resolved ∈ (w.called turn t).spawned

/-- The pool that pushes is `r`, and the push is among the tasks of the call. -/
theorem toldNow_of {r : MediaPool} {pooled : PooledTrack} {stored : MediaConstraints × ℕ}
    {session : Option Session} (identified : (w.pool.memberIdentities.lookup s.1).isSome = true)
    (identities : r.memberIdentities = w.pool.memberIdentities)
    (constraints : r.constraints = w.pool.constraints)
    (entries : (w.called turn t).pool = r.pool)
    (at_ : (w.called turn t).tracks.lookup s = some pooled)
    (is_session : w.overAfter turn pooled.track = session)
    (found : w.pool.constraints.lookup s = some stored) (reaches : Reaches r s.1 session)
    (pushed : ∀ task ∈ pushes r s.1 s.2, task ∈ (w.called turn t).spawned) :
    ToldNow w turn t s (stored.1.resolve s.2) := by
  obtain ⟨identity, mapped⟩ := Option.isSome_iff_exists.mp identified
  obtain ⟨connection, is_target, is_handle⟩ := reaches.exists
  have found' : r.constraints.lookup (s.1, s.2) = some (stored.1, stored.2) := by
    rw [constraints]
    exact found
  have mapped' : r.memberIdentities.lookup s.1 = some identity := by
    rw [identities]
    exact mapped
  refine ⟨connection, identity, mapped, ?_, pushed _ (mem_pushes found' mapped' is_target)⟩
  have handles : handleOf (w.called turn t) = handleOf r := by
    unfold handleOf
    rw [entries]
  rw [at_, Option.bind_some, is_session, handles]
  exact is_handle

theorem toldNow_debounced (inv : Inv w) {pooled : PooledTrack} {stored : MediaConstraints × ℕ}
    (found : w.pool.constraints.lookup s = some stored)
    (at_ : w.pool.tracks.lookup s = some pooled)
    (reaches : Reaches w.pool s.1 (w.over_ pooled.track)) :
    ToldNow w (.pool (.applyConstraints s.1 s.2 stored.2)) t s (stored.1.resolve s.2) := by
  have called : w.called (.pool (.applyConstraints s.1 s.2 stored.2)) t =
      { w.pool with spawned := w.pool.spawned ++ pushes w.pool s.1 s.2 } := by
    rw [← applyConstraintsNow_eq]
    refine if_pos ?_
    rw [found]
    simp
  have tracked : s ∈ w.pool.tracks := AList.lookup_isSome.mp (Option.isSome_of_mem at_)
  refine toldNow_of (r := w.pool) (inv.alone.identified tracked) rfl rfl ?_ ?_ rfl found reaches ?_
  · rw [called]
  · rw [called]
    exact at_
  · rw [called]
    exact fun task there => List.mem_append_right _ there

theorem toldNow_added (inv : Inv w) {pooled : PooledTrack} {generation : ℕ} {identity : String}
    {stored : MediaConstraints × ℕ} (found : w.pool.constraints.lookup s = some stored)
    (current : w.pool.isCurrent pooled.connectionKey generation = true)
    (mapped : w.pool.identityMap.lookup identity = some s.1)
    (new : (w.pool.tracks.lookup s).any (·.track == pooled.track) = false)
    (reaches : Reaches w.pool s.1 (some (pooled.connectionKey, generation))) :
    ToldNow w (.pool (.connection pooled.connectionKey generation
      (.trackAdded identity s.2 pooled.track))) t s (stored.1.resolve s.2) := by
  obtain ⟨events, added⟩ := addTrack_eq w.pool s.1 s.2 pooled
  rw [new, if_neg Bool.false_ne_true] at added
  have called : w.called (.pool (.connection pooled.connectionKey generation
      (.trackAdded identity s.2 pooled.track))) t = w.pool.addTrack s.1 s.2 pooled := by
    refine (if_pos current).trans ?_
    unfold MediaPool.handleConnectionEvent MediaPool.trackAdded
    dsimp only
    rw [mapped]
  have session : w.overAfter (.pool (.connection pooled.connectionKey generation
      (.trackAdded identity s.2 pooled.track))) pooled.track =
        some (pooled.connectionKey, generation) := by
    unfold Watched.overAfter trackWord
    dsimp only
    rw [if_pos current, Function.update_self]
  have identified := Option.isSome_of_mem (inv.base.attributed.named mapped)
  refine toldNow_of (r := w.pool) identified rfl rfl ?_ ?_ session found reaches ?_
  · rw [called, added]
  · rw [called, added]
    exact AList.lookup_insert _
  · rw [called, added]
    exact fun task there => List.mem_append_right _ there

theorem toldNow_reconnected (inv : Inv w) {pooled : PooledTrack} {session : Session}
    {stored : MediaConstraints × ℕ} (found : w.pool.constraints.lookup s = some stored)
    (current : w.pool.isCurrent session.1 session.2 = true)
    (at_ : (w.called (.pool (.connection session.1 session.2 .reconnected)) t).tracks.lookup s =
      some pooled)
    (over_ : w.over_ pooled.track = some session)
    (listed : ((reapplying w.pool session.1 t).pool.lookup session.1).any
      (·.members.contains s.1) = true)
    (reaches : Reaches (reapplying w.pool session.1 t) s.1 (some session)) :
    ToldNow w (.pool (.connection session.1 session.2 .reconnected)) t s
      (stored.1.resolve s.2) := by
  let r := reapplying w.pool session.1 t
  have passes : Passes w.pool r := by
    refine passes_of_steps (Steps.trans (q := (if w.pool.ownConnectionKey = some session.1 then
      w.pool.endOwnLoss else w.pool).clearDegraded session.1) ?_ (steps_peerUp _ _ _))
    refine Steps.trans (q := if w.pool.ownConnectionKey = some session.1 then
      w.pool.endOwnLoss else w.pool) ?_ (steps_clearDegraded _)
    split_ifs
    · exact steps_endOwnLoss
    · exact .refl _
  obtain ⟨entry, is_entry, lists⟩ := (Option.any_eq_true _ _).mp listed
  have called : w.called (.pool (.connection session.1 session.2 .reconnected)) t =
      { r with
        spawned := r.spawned ++ r.constraints.keys.flatMap fun stream =>
          if entry.members.contains stream.1 then pushes r stream.1 stream.2 else [] } :=
    (if_pos current).trans (reapplyConnectionConstraints_eq is_entry)
  have tracked : s ∈ w.pool.tracks := by
    have at_r : r.tracks.lookup s = some pooled := by
      rw [called] at at_
      exact at_
    exact AList.lookup_isSome.mp (Option.isSome_of_mem (passes.tracks s pooled at_r))
  refine toldNow_of (r := r) (inv.alone.identified tracked) passes.identities passes.constraints
    ?_ at_ over_ found reaches ?_
  · rw [called]
  · rw [called]
    refine fun task there => List.mem_append_right _ (List.mem_flatMap.mpr ⟨s, ?_, ?_⟩)
    · rw [passes.constraints]
      exact AList.mem_keys.mp (AList.lookup_isSome.mp (Option.isSome_of_mem found))
    · rw [if_pos lists]
      exact there

theorem of_debounce {generation : ℕ} (h : debounce turn = some (s, generation)) :
    turn = .pool (.applyConstraints s.1 s.2 generation) := by
  unfold debounce at h
  split at h
  · cases h
    rfl
  · cases h

theorem of_callOf {message : Message} (h : callOf turn = some (.handle message)) :
    turn = .pool message := by
  unfold callOf at h
  split at h <;> cases h
  rfl

/-- Nothing of the stream is renewed: it has the track that it had, and its connection has not
reconnected. -/
theorem renewed_eq_false {pooled former : PooledTrack}
    (at_ : (w.called turn t).tracks.lookup s = some pooled)
    (before : w.pool.tracks.lookup s = some former) (same : former.track = pooled.track)
    (other : ∀ session ∈ reconnection turn, w.pool.isCurrent session.1 session.2 = true →
      w.over_ pooled.track ≠ some session) : w.renewed turn t s = false := by
  have kept : (((w.called turn t).tracks.lookup s).map (·.track) !=
      (w.pool.tracks.lookup s).map (·.track)) = false := by
    rw [at_, before, Option.map_some, Option.map_some, same, bne_self_eq_false]
  unfold Watched.renewed
  rw [kept, Bool.false_or, at_, Option.bind_some, Option.any_eq_false]
  intro session is_session
  rw [Bool.eq_false_iff, ne_eq, Bool.and_eq_true, beq_iff_eq]
  rintro ⟨current, over_⟩
  exact other session is_session current over_

/-- What is stored of a stream is told once its timer stands no more. -/
theorem told_of_stays (inv : Inv w) (carried : Carried w (turn, t)) (stays : Stays w turn t s)
    (silent : ∀ task ∈ later, Silent task) (asked : s ∈ w.asked) {pooled : PooledTrack}
    (at_ : (w.called turn t).tracks.lookup s = some pooled) {stored : MediaConstraints × ℕ}
    (found : w.pool.constraints.lookup s = some stored) :
    armed (w.pendingAfter turn ((w.called turn t).spawned ++ later)) s stored.2 = true ∨
      w.appliedAfter turn t ((w.called turn t).spawned ++ later) s =
        some (stored.1.resolve s.2) := by
  obtain ⟨-, added, debounced, reconnected⟩ := carried
  by_cases brought : debounce turn = some (s, stored.2)
  · -- the timer is here
    right
    refine appliedAfter_of stays silent found (.inl ?_)
    have reaches := debounced (s, stored.2) brought asked (by rw [found]; simp)
    obtain rfl := of_debounce brought
    obtain before | ⟨call, is_call, generation, identity, is_word, -⟩ := stays.tracks pooled at_
    · exact toldNow_debounced inv found before (reaches pooled before)
    · cases is_call
      cases is_word
  by_cases stands : armed w.pending s stored.2 = true
  · exact .inl (armed_pendingAfter stands brought)
  have untimed : Untimed w s := by
    intro other found'
    cases found.symm.trans found'
    exact Bool.eq_false_iff.mpr stands
  have told {former : PooledTrack} (before : w.pool.tracks.lookup s = some former) :
      w.applied s = some (stored.1.resolve s.2) :=
    (inv.owed s asked (AList.lookup_isSome.mp (Option.isSome_of_mem before)) stored
      found).resolve_left stands
  right
  refine appliedAfter_of stays silent found ?_
  obtain before | ⟨call, is_call, generation, identity, rfl, current, mapped⟩ :=
    stays.tracks pooled at_
  · by_cases again : ∃ session, reconnection turn = some session ∧
        w.pool.isCurrent session.1 session.2 = true ∧ w.over_ pooled.track = some session
    · obtain ⟨session, is_session, current, over_⟩ := again
      obtain ⟨listed, reaches⟩ :=
        reconnected session is_session current s asked untimed pooled before over_
      have is_turn : turn = .pool (.connection session.1 session.2 .reconnected) := by
        unfold reconnection at is_session
        split at is_session
        · cases is_session
          rfl
        · cases is_session
      subst is_turn
      exact .inl (toldNow_reconnected inv found current at_ over_ listed reaches)
    · refine .inr ⟨renewed_eq_false at_ before rfl ?_, told before⟩
      exact fun session is_session current over_ => again ⟨session, is_session, current, over_⟩
  · obtain rfl := of_callOf is_call
    cases new : (w.pool.tracks.lookup s).any (·.track == pooled.track) with
    | true =>
        obtain ⟨former, before, same⟩ := (Option.any_eq_true _ _).mp new
        refine .inr ⟨renewed_eq_false at_ before (beq_iff_eq.mp same) ?_, told before⟩
        intro session is_session
        cases is_session
    | false =>
        refine .inl (toldNow_added inv found current mapped new ?_)
        exact added ⟨(pooled.connectionKey, generation), identity, s.2, pooled.track⟩ rfl current
          s.1 mapped asked untimed new

/-- Of whom what the host asks is forgotten. -/
theorem reconcileRoster_kept (a : Actor) (snapshot : List JoinedMembership) :
    (a.reconcileRoster snapshot).tasks = a.tasks ∧
      (∀ s : Stream, (a.reconcileRoster snapshot).hostConstraints.lookup s =
        if s.1 ∈ idsOf a.roster ∧ ¬ Named snapshot s.1 then none else a.hostConstraints.lookup s) ∧
      ∀ memberId, ¬ (memberId ∈ idsOf a.roster ∧ ¬ Named snapshot memberId) →
        (a.reconcileRoster snapshot).isUndecryptable memberId = a.isUndecryptable memberId := by
  have arrivals (announceFor : String → Option ℕ) (b : Actor) :
      (b.addArrived snapshot announceFor).tasks = b.tasks ∧
        (b.addArrived snapshot announceFor).hostConstraints = b.hostConstraints ∧
        (b.addArrived snapshot announceFor).encryptionStates = b.encryptionStates := by
    unfold Actor.addArrived
    induction snapshot generalizing b with
    | nil => exact ⟨rfl, rfl, rfl⟩
    | cons member rest ih =>
        rw [List.foldl_cons]
        split_ifs
        · exact ih b
        · exact ih _
  have departures (announceFor : String → Option ℕ) (ps : List Participant) (b : Actor) :
      (ps.foldl (fun b p => b.removeMember p.memberId (announceFor p.memberId)) b).tasks =
        b.tasks ∧
      (∀ s : Stream, (ps.foldl (fun b p => b.removeMember p.memberId (announceFor p.memberId))
          b).hostConstraints.lookup s =
        if s.1 ∈ idsOf ps then none else b.hostConstraints.lookup s) ∧
      ∀ memberId, memberId ∉ idsOf ps →
        (ps.foldl (fun b p => b.removeMember p.memberId (announceFor p.memberId))
          b).isUndecryptable memberId = b.isUndecryptable memberId := by
    induction ps generalizing b with
    | nil => exact ⟨rfl, fun _ => rfl, fun _ _ => rfl⟩
    | cons p rest ih =>
        obtain ⟨tasks, host, failing⟩ := ih (b.removeMember p.memberId (announceFor p.memberId))
        refine ⟨tasks, fun s => (host s).trans ?_, fun memberId left => ?_⟩
        · rw [show (b.removeMember p.memberId (announceFor p.memberId)).hostConstraints.lookup s =
            _ from lookup_retain_streams b.hostConstraints p.memberId s]
          by_cases later : s.1 ∈ idsOf rest <;> by_cases same : s.1 = p.memberId <;>
            simp_all [idsOf]
        · have differs : memberId ≠ p.memberId ∧ memberId ∉ idsOf rest := by
            simpa [idsOf] using left
          refine (failing memberId differs.2).trans ?_
          unfold Actor.isUndecryptable Actor.removeMember
          rw [AList.lookup_erase_ne differs.1]
  unfold Actor.reconcileRoster
  extract_lets withUs arrived count announceFor b
  obtain ⟨tasks, host, states⟩ := arrivals announceFor (b.removeDeparted snapshot announceFor)
  obtain ⟨tasks', host', failing⟩ := departures announceFor
    (b.roster.filter fun p => !(snapshot.map (·.memberId)).contains p.memberId) b
  have gone {memberId : String} : memberId ∈ idsOf (b.roster.filter fun p =>
      !(snapshot.map (·.memberId)).contains p.memberId) ↔
        memberId ∈ idsOf a.roster ∧ ¬ Named snapshot memberId := by
    simp only [idsOf, List.mem_map, List.mem_filter, Bool.not_eq_true', named_iff,
      ← Bool.not_eq_true, List.contains_iff_mem]
    constructor
    · rintro ⟨p, ⟨at_, unnamed⟩, rfl⟩
      exact ⟨⟨p, at_, rfl⟩, unnamed⟩
    · rintro ⟨⟨p, at_, rfl⟩, unnamed⟩
      exact ⟨p, ⟨at_, unnamed⟩, rfl⟩
  refine ⟨tasks.trans tasks', fun s => ?_, fun memberId stays => ?_⟩
  · rw [host]
    refine (host' s).trans ?_
    simp only [gone]
    rfl
  · unfold Actor.isUndecryptable
    rw [states]
    exact failing memberId fun left => stays (gone.mp left)

/-- The actor as the call of a turn finds it: a snapshot has changed its roster. -/
def settled (w : Watched) : Turn → Actor
  | .memberships snapshot => w.actor.reconcileRoster snapshot
  | _ => w.actor

/-- The actor with the call of a turn made, and nothing done yet with what it reports. -/
def mid (w : Watched) (turn : Turn) (t : Answers) : Actor :=
  { settled w turn with
    pool := (w.called turn t).take.1
    tasks := w.actor.tasks ++ (w.called turn t).spawned }

theorem take_of_clear {p : MediaPool} (clear : Clear p) : p.take.1 = p := by
  unfold MediaPool.take
  rw [← clear.1, ← clear.2]

theorem mid_of_none (clear : Clear w.pool) (none_ : callOf turn = none)
    (is_settled : settled w turn = w.actor) : mid w turn t = w.actor := by
  have called : w.called turn t = w.pool := by
    unfold Watched.called
    rw [none_]
  have tasks : w.actor.tasks ++ w.pool.spawned = w.actor.tasks := by
    rw [clear.2, List.append_nil]
  rw [mid, called, take_of_clear clear, is_settled, tasks]

/-- What a turn does after its call, if it does not set constraints. -/
theorem restates_turn (inv : Inv w) (turn : Turn) (t : Answers)
    (other : ∀ memberId kind c, turn ≠ .message (.setConstraints memberId kind c)) :
    Restates (mid w turn t) (w.actor.turn turn t) := by
  have taken : Clear (mid w turn t).pool := ⟨rfl, rfl⟩
  have received : Restates (mid w turn t) (w.actor.receive turn t) := by
    have through (call : Call) (is_call : callOf turn = some call)
        (is_settled : settled w turn = w.actor) :
        Restates (mid w turn t) (w.actor.throughPool call t) := by
      have called : mid w turn t = (w.actor.callPool call t).1 := by
        unfold mid Watched.called
        rw [is_call, is_settled]
        rfl
      rw [called] at taken ⊢
      exact .applyPoolEvents taken t _
    have nothing (none_ : callOf turn = none) (is_settled : settled w turn = w.actor) :
        mid w turn t = w.actor := mid_of_none inv.clear none_ is_settled
    cases turn with
    | signalling reachable => exact through _ rfl rfl
    | pool message => exact through _ rfl rfl
    | lapsed coreLapsed =>
        rw [nothing rfl rfl]
        exact .of_same inv.clear rfl rfl rfl rfl
    | ended =>
        rw [nothing rfl rfl]
        exact .end_ inv.clear t
    | memberships snapshot =>
        obtain ⟨announces, -⟩ := reconcileRoster_spec w.actor snapshot
        obtain ⟨tasks, -⟩ := reconcileRoster_kept w.actor snapshot
        have pool : (w.actor.reconcileRoster snapshot).pool = w.pool := announces.pool
        have called : mid w (.memberships snapshot) t =
            ((w.actor.reconcileRoster snapshot).callPool (.applySnapshot snapshot) t).1 := by
          unfold mid Actor.callPool
          rw [pool, tasks]
          rfl
        rw [called] at taken ⊢
        refine Restates.trans (b := (w.actor.reconcileRoster snapshot).throughPool
          (.applySnapshot snapshot) t) (.applyPoolEvents taken t _) ?_
        exact .of_same (Restates.applyPoolEvents taken t _).clear rfl rfl rfl rfl
    | message message =>
        cases message with
        | adoptConnection key connection => exact .of_same taken rfl rfl rfl rfl
        | connectOwn key connection => exact through _ rfl rfl
        | keyImported identity keyIndex => exact through _ rfl rfl
        | setConstraints memberId kind c => exact absurd rfl (other memberId kind c)
        | shutdown =>
            rw [nothing rfl rfl]
            exact .end_ inv.clear t
        | localPublished kind muted track =>
            rw [nothing rfl rfl]
            let tracks := w.actor.localTracks.insert kind ⟨track, muted, muted⟩
            exact Restates.trans (b := { w.actor with localTracks := tracks })
              (.of_same inv.clear rfl rfl rfl rfl)
              (.of_restreams inv.clear (restreams_addLocalStream _ _ kind))
        | localUnpublished kind track =>
            rw [nothing rfl rfl]
            change Restates w.actor (w.actor.localUnpublished kind track)
            unfold Actor.localUnpublished
            split_ifs
            · let tracks := w.actor.localTracks.erase kind
              exact Restates.trans (b := { w.actor with localTracks := tracks })
                (.of_same inv.clear rfl rfl rfl rfl)
                (.of_restreams inv.clear (restreams_removeStream _ _ kind))
            · exact .of_same inv.clear rfl rfl rfl rfl
        | setLocalMuted kind muted =>
            rw [nothing rfl rfl]
            change Restates w.actor (w.actor.setLocalMuted kind muted t)
            unfold Actor.setLocalMuted
            split
            · exact .of_same inv.clear rfl rfl rfl rfl
            · next publication _ =>
                extract_lets told calls tracks
                split_ifs
                · exact Restates.trans (b := { w.actor with
                    muteCalls := calls, localTracks := tracks })
                    (.of_same inv.clear rfl rfl rfl rfl)
                    (.of_restreams inv.clear (restreams_setMemberMuted _ _ kind muted))
                · exact .of_same inv.clear rfl rfl rfl rfl
        | speakerTimer memberId generation =>
            rw [nothing rfl rfl]
            change Restates w.actor (w.actor.speakerTimer memberId generation)
            unfold Actor.speakerTimer
            split
            · exact .of_same inv.clear rfl rfl rfl rfl
            · split <;> exact .of_same inv.clear rfl rfl rfl rfl
  exact received.trans (.of_same received.clear rfl rfl rfl rfl)

theorem called_of_call {call : Call} (is_call : callOf turn = some call) :
    w.called turn t = w.pool.perform ⟨call, t.now, t.takeOver⟩ := by
  unfold Watched.called
  rw [is_call]

theorem called_of_none (none_ : callOf turn = none) : w.called turn t = w.pool := by
  unfold Watched.called
  rw [none_]

/-- A turn that is no snapshot makes a call that brings no member and no constraints, or none. -/
theorem callOf_cases (turn : Turn) : callOf turn = none ∨
    (∃ snapshot, turn = .memberships snapshot) ∨
      ∃ call, callOf turn = some call ∧ (∀ members, call ≠ .applySnapshot members) ∧
        ∀ memberId kind c, call ≠ .setConstraints memberId kind c := by
  cases turn with
  | memberships snapshot => exact .inr (.inl ⟨snapshot, rfl⟩)
  | signalling reachable => exact .inr (.inr ⟨_, rfl, by simp, by simp⟩)
  | pool message => exact .inr (.inr ⟨_, rfl, by simp, by simp⟩)
  | lapsed coreLapsed => exact .inl rfl
  | ended => exact .inl rfl
  | message message =>
      cases message with
      | adoptConnection key connection => exact .inr (.inr ⟨_, rfl, by simp, by simp⟩)
      | connectOwn key connection => exact .inr (.inr ⟨_, rfl, by simp, by simp⟩)
      | keyImported identity keyIndex => exact .inr (.inr ⟨_, rfl, by simp, by simp⟩)
      | _ => exact .inl rfl

theorem applied_called (inv : Inv w) {snapshot : List JoinedMembership}
    (carried : Carried w (.memberships snapshot, t)) :
    Applied snapshot w.pool (w.called (.memberships snapshot) t) :=
  applied_applySnapshot inv.base.attributed inv.alone (carried.1 snapshot rfl)

theorem alone_called (inv : Inv w) (carried : Carried w (turn, t)) :
    Alone (w.called turn t) := by
  obtain none_ | ⟨snapshot, rfl⟩ | ⟨call, is_call, snapshot, constraints⟩ := callOf_cases turn
  · rw [called_of_none none_]
    exact inv.alone
  · exact (applied_called inv carried).alone
  · rw [called_of_call is_call]
    have pushed := @pushed_perform w.pool ⟨call, t.now, t.takeOver⟩ snapshot constraints
    exact alone_perform inv.base.attributed inv.alone snapshot pushed.attribution

/-- The call of a turn leaves a stream alone that stays asked for. -/
theorem stays_turn (inv : Inv w) (carried : Carried w (turn, t)) (before : s ∈ w.asked)
    (after : s ∈ w.askedAfter turn) : Stays w turn t s := by
  obtain none_ | ⟨snapshot, rfl⟩ | ⟨call, is_call, snapshot, constraints⟩ := callOf_cases turn
  · have called : w.called turn t = w.pool := called_of_none none_
    refine ⟨by rw [called], by rw [called], fun pooled at_ => .inl (called ▸ at_), ?_⟩
    rw [called, inv.clear.2]
    intro connection identity resolved there
    cases there
  · have named : Named snapshot s.1 :=
      named_iff.mpr (List.contains_iff_mem.mp (List.mem_filter.mp after).2)
    have known := (inv.base.known s.1).mpr (inv.asked s before).1
    have applied := applied_called inv carried
    obtain ⟨tasks, spawned, faithful⟩ := applied.tasks
    refine ⟨applied.identities s.1 known named, ?_,
      fun pooled at_ => .inl (applied.tracks s pooled known named at_), ?_⟩
    · rw [applied.constraints, if_neg fun left => left.2 named]
    · rw [spawned, inv.clear.2, List.nil_append]
      exact faithful s known named
  · have called : w.called turn t = w.pool.perform ⟨call, t.now, t.takeOver⟩ :=
      called_of_call is_call
    obtain ⟨attribution, same, tasks, spawned, told⟩ :=
      @pushed_perform w.pool ⟨call, t.now, t.takeOver⟩ snapshot constraints
    have identities : (w.called turn t).memberIdentities = w.pool.memberIdentities := by
      rw [called]
      exact congrArg Attribution.memberIdentities attribution
    refine ⟨by rw [identities], by rw [called, same], fun pooled at_ => ?_, ?_⟩
    · rw [called] at at_
      exact (tracks_perform snapshot at_).imp_right fun brings => ⟨call, is_call, brings⟩
    · rw [called, spawned, inv.clear.2, List.nil_append]
      exact faithful_of_pushes inv.alone told s

/-- The call of a turn leaves what is stored as the host has it. -/
theorem stored_mid (inv : Inv w) (carried : Carried w (turn, t)) : Stored (mid w turn t) := by
  obtain none_ | ⟨snapshot, rfl⟩ | ⟨call, is_call, snapshot, constraints⟩ := callOf_cases turn
  · have is_settled : settled w turn = w.actor := by
      cases turn with
      | memberships snapshot => cases none_
      | _ => rfl
    rw [mid_of_none inv.clear none_ is_settled]
    exact inv.stored
  · obtain ⟨-, host, failing⟩ := reconcileRoster_kept w.actor snapshot
    intro s
    change ((w.called (.memberships snapshot) t).constraints.lookup s).map _ =
      ((w.actor.reconcileRoster snapshot).hostConstraints.lookup s).map fun constraints =>
        probeUndecryptable s.2 constraints ((w.actor.reconcileRoster snapshot).isUndecryptable s.1)
    have known := and_congr_left' (c := ¬ Named snapshot s.1) (inv.base.known s.1)
    rw [(applied_called inv carried).constraints, host]
    by_cases left : s.1 ∈ idsOf w.actor.roster ∧ ¬ Named snapshot s.1
    · rw [if_pos (known.mpr left), if_pos left]
      rfl
    · rw [if_neg (known.not.mpr left), if_neg left, failing s.1 left]
      exact inv.stored s
  · have is_settled : settled w turn = w.actor := by
      cases turn with
      | memberships members => cases is_call; exact absurd rfl (snapshot members)
      | _ => rfl
    have same := (@pushed_perform w.pool ⟨call, t.now, t.takeOver⟩ snapshot constraints).constraints
    intro s
    rw [mid, is_settled, called_of_call is_call]
    change ((w.pool.perform _).constraints.lookup s).map _ = _
    rw [same]
    exact inv.stored s

/-- The host sets constraints: they are stored as it has them, and their timer is started. -/
structure Sets (w : Watched) (s : Stream) (v : Actor) : Prop where
  rearms : Rearms w.actor v
  host : ∀ other : Stream, (v.hostConstraints.lookup other).isSome = true ↔
    other = s ∨ (w.actor.hostConstraints.lookup other).isSome = true
  stored : Stored v
  timed : ∃ tasks, v.tasks = w.actor.tasks ++ tasks ∧ ∀ stored ∈ v.pool.constraints.lookup s,
    ∃ delay, .applyConstraints s.1 s.2 stored.2 delay ∈ tasks

theorem sets_turn (inv : Inv w) (memberId : String) (kind : MediaStreamKind)
    (c : MediaConstraints) (t : Answers) :
    Sets w (memberId, kind) (w.actor.turn (.message (.setConstraints memberId kind c)) t) := by
  let asked : Actor := { w.actor with
    hostConstraints := w.actor.hostConstraints.insert (memberId, kind) c }
  obtain ⟨rearms, values⟩ := @Rearms.pushConstraints asked inv.clear memberId
    (asked.isUndecryptable memberId) t (kind, c)
  let generation := ((w.pool.constraints.lookup (memberId, kind)).map (·.2)).getD 0 + 1
  have timed : (w.actor.setConstraints memberId kind c t).tasks = w.actor.tasks ++
      [.applyConstraints memberId kind generation constraintsDebounce] := by
    change w.actor.tasks ++ (w.pool.spawned ++ _) = _
    rw [inv.clear.2]
    rfl
  have first : Rearms w.actor asked := .of_same inv.clear rfl rfl
  refine
    { rearms := (first.trans rearms).trans (.of_same rearms.clear rfl rfl)
      host := fun other => ?_
      stored := fun other => ?_
      timed := ⟨_, timed, fun stored found => ⟨constraintsDebounce, ?_⟩⟩ }
  · change ((w.actor.hostConstraints.insert (memberId, kind) c).lookup other).isSome = true ↔ _
    rw [AList.lookup_isSome, AList.mem_insert, AList.lookup_isSome]
  · refine (values other).trans ?_
    change _ = ((w.actor.hostConstraints.insert (memberId, kind) c).lookup other).map fun c =>
      probeUndecryptable other.2 c (w.actor.isUndecryptable other.1)
    split_ifs with same
    · subst same
      rw [AList.lookup_insert]
      rfl
    · rw [AList.lookup_insert_ne same]
      exact inv.stored other
  · have is_stored : (w.actor.setConstraints memberId kind c t).pool.constraints.lookup
        (memberId, kind) = some (_, generation) := AList.lookup_insert _
    cases is_stored.symm.trans found
    exact .head _

/-- The stream is told of as it is stored, if it was asked for before. -/
theorem owed_of_rearms (inv : Inv w) (carried : Carried w (turn, t))
    (rearms : Rearms (mid w turn t) (w.actor.turn turn t)) (before : s ∈ w.asked)
    (after : s ∈ w.askedAfter turn) (there : s ∈ (w.actor.turn turn t).pool.tracks)
    {stored : MediaConstraints × ℕ}
    (found : (w.actor.turn turn t).pool.constraints.lookup s = some stored)
    (are : started = (w.actor.turn turn t).tasks.drop w.actor.tasks.length) :
    armed (w.pendingAfter turn started) s stored.2 = true ∨
      w.appliedAfter turn t started s = some (stored.1.resolve s.2) := by
  obtain ⟨later, tasks, silent, timed⟩ := rearms.tasks
  have all : started = (w.called turn t).spawned ++ later := by
    rw [are, tasks]
    change (w.actor.tasks ++ (w.called turn t).spawned ++ later).drop _ = _
    rw [List.append_assoc, List.drop_left]
  have stays := stays_turn inv carried before after
  obtain ⟨pooled, at_⟩ := Option.isSome_iff_exists.mp (AList.lookup_isSome.mpr there)
  rw [rearms.tracks] at at_
  rw [all]
  obtain same | ⟨stored', delay, found', is_timed⟩ := timed s
  · rw [same] at found
    exact told_of_stays inv carried stays silent before at_ (stays.constraints.symm.trans found)
  · cases found.symm.trans found'
    exact .inl (armed_started (List.mem_append_right _ is_timed))

theorem of_step {v : Watched} (h : step w (turn, t) = some v) :
    let started := (w.actor.turn turn t).tasks.drop w.actor.tasks.length
    v = ⟨w.actor.turn turn t, w.overAfter turn, w.appliedAfter turn t started,
      w.pendingAfter turn started, w.askedAfter turn⟩ := by
  unfold step at h
  split_ifs at h
  exact (Option.some.inj h).symm

/-- Whoever is asked for is there. -/
theorem asked_turn (inv : Inv w) (restates : Restates (mid w turn t) (w.actor.turn turn t))
    (other : ∀ memberId kind c, turn ≠ .message (.setConstraints memberId kind c))
    (after : s ∈ w.askedAfter turn) :
    s ∈ w.asked ∧ s.1 ∈ idsOf (w.actor.turn turn t).roster ∧
      ((w.actor.turn turn t).hostConstraints.lookup s).isSome = true := by
  rw [restates.hostConstraints]
  by_cases applies : ∃ snapshot, turn = .memberships snapshot
  · obtain ⟨snapshot, rfl⟩ := applies
    obtain ⟨before, contained⟩ := List.mem_filter.mp after
    have named : Named snapshot s.1 := named_iff.mpr (List.contains_iff_mem.mp contained)
    obtain ⟨-, host, -⟩ := reconcileRoster_kept w.actor snapshot
    refine ⟨before, ?_, ?_⟩
    · rw [RosterEvents.ids_of_entries (RosterMembers.tells_applied w.actor snapshot t)]
      exact ((RosterEvents.reconciled inv.base snapshot).ids s.1).mpr named
    · change ((w.actor.reconcileRoster snapshot).hostConstraints.lookup s).isSome = true
      rw [host, if_neg fun left => left.2 named]
      exact (inv.asked s before).2
  · have no_snapshot : ∀ snapshot, turn ≠ .memberships snapshot := fun snapshot is_ =>
      applies ⟨snapshot, is_⟩
    have before : s ∈ w.asked := by
      unfold Watched.askedAfter at after
      split at after
      · exact absurd rfl (no_snapshot _)
      · exact absurd rfl (other _ _ _)
      · exact after
    have is_settled : settled w turn = w.actor := by
      unfold settled
      split
      · exact absurd rfl (no_snapshot _)
      · rfl
    obtain ⟨there, asked⟩ := inv.asked s before
    refine ⟨before, ?_, ?_⟩
    · rw [RosterEvents.ids_of_entries (tells_turn w.actor t no_snapshot)]
      exact there
    · rw [mid, is_settled]
      exact asked

theorem inv_step {v : Watched} (inv : Inv w) (carried : Carried w (turn, t))
    (next : step w (turn, t) = some v) : Inv v := by
  obtain rfl := of_step next
  have base := (RosterEvents.turned_turn inv.base turn t).inv
  by_cases sets : ∃ memberId kind c, turn = .message (.setConstraints memberId kind c)
  · obtain ⟨memberId, kind, c, rfl⟩ := sets
    have set := sets_turn inv memberId kind c t
    have is_mid : mid w (.message (.setConstraints memberId kind c)) t = w.actor :=
      mid_of_none inv.clear rfl rfl
    have ids := RosterEvents.ids_of_entries
      (@tells_turn w.actor (.message (.setConstraints memberId kind c)) t (by simp))
    have asked {s : Stream}
        (after : s ∈ w.askedAfter (.message (.setConstraints memberId kind c))) :
        s = (memberId, kind) ∧ memberId ∈ idsOf w.actor.roster ∨ s ∈ w.asked := by
      unfold Watched.askedAfter at after
      dsimp only at after
      split_ifs at after with there
      · exact (List.mem_cons.mp after).imp_left fun is_ => ⟨is_, List.contains_iff_mem.mp there⟩
      · exact .inr after
    refine
      { base := base
        alone := inv.alone.of_attribution set.rearms.attribution fun there =>
          inv.alone.identified (set.rearms.tracks ▸ there)
        clear := set.rearms.clear
        stored := set.stored
        asked := fun s after => ⟨?_, ?_⟩
        owed := fun s after there stored found => ?_ }
    · rw [ids]
      obtain ⟨rfl, at_⟩ | before := asked after
      · exact at_
      · exact (inv.asked s before).1
    · refine (set.host s).mpr ?_
      exact (asked after).imp (·.1) fun before => (inv.asked s before).2
    · obtain ⟨rfl, -⟩ | before := asked after
      · obtain ⟨tasks, are, timed⟩ := set.timed
        obtain ⟨delay, is_timed⟩ := timed stored found
        left
        dsimp only
        rw [are, List.drop_left]
        exact armed_started is_timed
      · exact owed_of_rearms inv carried (is_mid ▸ set.rearms) before after there found rfl
  · have other : ∀ memberId kind c, turn ≠ .message (.setConstraints memberId kind c) :=
      fun memberId kind c is_ => sets ⟨memberId, kind, c, is_⟩
    have restates := restates_turn inv turn t other
    exact
      { base := base
        alone := (alone_called inv carried).of_attribution restates.attribution fun there =>
          (alone_called inv carried).identified (restates.tracks ▸ there)
        clear := restates.clear
        stored := restates.stored (stored_mid inv carried)
        asked := fun s after => (asked_turn inv restates other after).2
        owed := fun s after there stored found =>
          owed_of_rearms inv carried restates.toRearms (asked_turn inv restates other after).1 after
            there found rfl }

theorem right_of_inv (inv : Inv w) : Right w := by
  intro quiet s asked there
  obtain ⟨constraints, is_asked⟩ := Option.isSome_iff_exists.mp (inv.asked s asked).2
  have value := inv.stored s
  rw [is_asked, Option.map_some, Option.map_eq_some_iff] at value
  obtain ⟨stored, found, is_probed⟩ := value
  refine ⟨constraints, is_asked, ?_⟩
  have told := (inv.owed s asked there stored found).resolve_left (by rw [quiet]; simp [armed])
  rw [told, is_probed]

theorem inv_start (config : PoolConfig) : Inv (start config) where
  base := RosterEvents.inv_new config
  alone := ⟨fun found => (nomatch found), fun found => (nomatch found),
    fun there => (nomatch there)⟩
  clear := ⟨rfl, rfl⟩
  stored _ := rfl
  asked _ there := nomatch there
  owed _ there := nomatch there

end

/-- Once nothing is awaited, the connection that carries a stream was last told what the host
last set for it, in every run in which a stream's connection is the one that is told of it
whenever something is to be told, and nobody joins under the identity of another. -/
theorem constraints_carried (config : PoolConfig) (inputs : List (Turn × Answers))
    (adm : Admissible step Carried (start config) inputs) :
    Always step Right (start config) inputs :=
  always_of_admissible (fun _ _ _ inv carried next => inv_step inv carried next)
    (fun _ inv => right_of_inv inv) (inv_start config) adm

def thumbnail : MediaConstraints := ⟨true, true, .quality .low, false⟩

/-- Bob's camera is wanted small, and his connection is told so. -/
def bobSmall : List (Turn × Answers) :=
  [(.message (.adoptConnection "https://a.x" 1), RosterMembers.unasked 0),
    (.memberships [bobOnB], RosterMembers.unasked 1),
    (.pool (.connectFinished "https://b.x" 0 (.ok 2)), RosterMembers.unasked 2),
    (.pool (.connection "https://b.x" 2 (.trackAdded "@bob:x:DEVICE" .camera 7)),
      RosterMembers.unasked 3),
    (.message (.setConstraints "bob-1" .camera thumbnail), RosterMembers.unasked 4),
    (.pool (.applyConstraints "bob-1" .camera 1), RosterMembers.unasked 5)]

/-- Bob's membership says that he has moved to our connection. -/
def bobMoves : Turn := .memberships [bobNaming [jwtTransport "https://a.x"]]

/-- His camera comes over our connection. -/
def cameraMoves : Turn :=
  .pool (.connection "https://a.x" 1 (.trackAdded "@bob:x:DEVICE" .camera 8))

/-- His membership comes before his camera. -/
theorem constraints_carried_moved :
    Always step Right (start aliceConfig) (bobSmall ++ [(bobMoves, RosterMembers.unasked 6),
      (cameraMoves, RosterMembers.unasked 7),
      (.pool (.closeIfIdle "https://b.x" 1), RosterMembers.unasked 8)]) :=
  constraints_carried aliceConfig _ (by decide +kernel)

/-- His camera comes before his membership: the connection that he leaves is told of it, and
the one that carries it never is. -/
theorem camera_first_untold :
    ¬ ∀ (config : PoolConfig) (inputs : List (Turn × Answers)),
      Always step Right (start config) inputs := by
  intro h
  have told := (h aliceConfig (bobSmall ++ [(cameraMoves, RosterMembers.unasked 6),
    (bobMoves, RosterMembers.unasked 7),
    (.pool (.closeIfIdle "https://b.x" 1), RosterMembers.unasked 8)])).mono fun w right =>
      (fun quiet s asked there => by
        obtain ⟨constraints, -, is_told⟩ := right quiet s asked there
        rw [is_told]
        rfl :
        w.pending = [] → ∀ s ∈ w.asked, s ∈ w.pool.tracks → (w.applied s).isSome = true)
  revert told
  decide +kernel

end MatrixRtc.StreamConstraints

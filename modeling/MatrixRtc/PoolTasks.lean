import MatrixRtc.MediaPools
import MatrixRtc.StepRuns

/-!
# A media pool and the tasks it started

The pool, and what its calls have spawned and not heard from yet: the connects and attempts
that are to answer, the timers, and the connections whose events come. Any of their messages
may be the next that is handled. A connection has no event after `Closed`. A task keeps how
often our focus had moved when it was started, and which entry under its key it is for.
-/
namespace MatrixRtc.PoolTasks
open MemberEvents MediaTransports Tables MediaPools

/-- A task under way. `answer` has the result of a connect or an attempt; a retry is `cut`
when the end of the budget made its attempt. -/
structure Flight where
  task : Spawned
  serial : ℕ
  since : ℕ
  tenure : ℕ
  birth : ℕ
  cut : Bool
  answer : Option (Except TransportError ℕ)

/-- A timer that has run for `delay`. -/
def Flight.due (f : Flight) (now delay : ℕ) (message : Message) : Option Message :=
  if f.since + delay ≤ now then some message else none

/-- What a task sends. -/
def Flight.message (f : Flight) (now : ℕ) : Option Message :=
  match f.task, f.answer with
  | .connect key attempt, some result => some (.connectFinished key attempt result)
  | .ownAttempt _ attempt _, some result =>
      some (.ownConnectFinished attempt (result.map fun _ => ()))
  | .forward key generation, _ => some (.connectionEnded key generation)
  | .retryConnect key attempt delay, _ => f.due now delay (.retryConnect key attempt)
  | .closeIfIdle key idleGeneration delay, _ => f.due now delay (.closeIfIdle key idleGeneration)
  | .applyConstraints memberId kind generation delay, _ =>
      f.due now delay (.applyConstraints memberId kind generation)
  | .ownRetry attempt delay, _ => f.due now delay (.ownRetry attempt)
  | .ownBudget epoch delay, _ => f.due now delay (.ownBudget epoch)
  | .ownFinalAttempt epoch delay, _ => f.due now delay (.ownFinalAttemptExpired epoch)
  | .ownFallback epoch delay, _ => f.due now delay (.ownFallback epoch)
  | .connect _ _, none | .ownAttempt _ _ _, none | .close _, _ | .constrain _ _ _ _, _ => none

/-- A connect or an attempt that has not answered. -/
def Flight.asks (f : Flight) : Bool :=
  match f.task with
  | .connect _ _ | .ownAttempt _ _ _ => f.answer.isNone
  | _ => false

/-- An attempt at our own focus, or the backoff before one. -/
def ofOwnFocus : Spawned → Bool
  | .ownAttempt _ _ _ | .ownRetry _ _ => true
  | _ => false

def isRetry : Spawned → Bool
  | .ownRetry _ _ => true
  | _ => false

def isMove : PoolEvent → Bool
  | .ownFocusMoved _ _ => true
  | _ => false

/-- The pool and its tasks. `over` has the connections that had their last event, `latest` the
attempt or backoff that was last started for our own focus since it became ours, and
`reported` the events of all calls. -/
structure System where
  pool : MediaPool
  now : ℕ
  flights : List Flight
  over_ : List (String × ℕ)
  started : ℕ
  tenure : ℕ
  births : String → ℕ
  latest : Option ℕ
  reported : List PoolEvent

/-- The entry under the key is another one than before. -/
def reborn (p q : MediaPool) (key : String) : Bool :=
  match p.pool.lookup key, q.pool.lookup key with
  | none, some _ => true
  | some before, some after => before.isOwn && !after.isOwn
  | none, none | some _, none => false

namespace System

/-- The tasks of a call. -/
def launch (s : System) (tenure : ℕ) (births : String → ℕ) (tasks : List Spawned) :
    List Flight :=
  tasks.mapIdx fun i task =>
    { task := task
      serial := s.started + i
      since := s.now
      tenure := tenure
      birth := match task with
        | .connect key _ => births key
        | _ => 0
      cut := false
      answer := none }

/-- A call was made that left the pool as `pool`, with the tasks of `rest` still under way. -/
def called (s : System) (pool : MediaPool) (rest : List Flight) : System :=
  let (pool, events, tasks) := pool.take
  let tenure := s.tenure + (events.filter isMove).length
  let births key := if reborn s.pool pool key then s.births key + 1 else s.births key
  let launched := s.launch tenure births tasks
  { pool := pool
    now := s.now
    flights := rest ++ launched
    over_ := s.over_
    started := s.started + tasks.length
    tenure := tenure
    births := births
    latest := match (launched.filter fun f => ofOwnFocus f.task).getLast? with
      | some f => some f.serial
      | none => if tenure = s.tenure then s.latest else none
    reported := s.reported ++ events }

/-- The end of the budget makes the next attempt, and the backoff before it is cut short. -/
def cutShort (s : System) (message : Message) (rest : List Flight) : List Flight :=
  match message with
  | .ownBudget epoch =>
      match s.pool.lossStands epoch, s.pool.ownEntry.map ManagedConnection.state with
      | true, some (.backoff _) =>
          rest.map fun f => if isRetry f.task then { f with cut := true } else f
      | _, _ => rest
  | _ => rest

end System

/-- The owner hands a handle of our own focus over once, for the focus it announced, and
calls nothing with a message of its own. -/
def allowed (p : MediaPool) : Call → Bool
  | .connectOwn key _ | .adoptOwnConnection key _ =>
      p.own.isNone && !p.ownLost && !p.closed && p.ownConnectionKey == some key
  | .handle _ => false
  | .applySnapshot _ | .keyImported _ _ | .setConstraints _ _ _ | .setSignallingReachable _
  | .close => true

inductive Action where
  | tick (ms : ℕ)
  | owner (call : Call) (takeOver : Except TransportError Unit)
  | answer (i : ℕ) (result : Except TransportError ℕ)
  | deliver (i : ℕ) (takeOver : Except TransportError Unit)
  | event (i : ℕ) (event : ConnectionEvent) (takeOver : Except TransportError Unit)

/-- The connection whose events a task forwards. -/
def Flight.connection (f : Flight) : Option (String × ℕ) :=
  match f.task with
  | .forward key generation => some (key, generation)
  | _ => none

def isClosed : ConnectionEvent → Bool
  | .closed _ => true
  | _ => false

/-- The connections of which no event comes after this step. -/
def System.lapse (s : System) (connections : List (String × ℕ)) : System :=
  { s with over_ := connections ++ s.over_ }

def step (s : System) : Action → Option System
  | .tick ms => some { s with now := s.now + ms }
  | .owner call takeOver =>
      if allowed s.pool call then
        some (s.called (s.pool.perform ⟨call, s.now, takeOver⟩) s.flights)
      else none
  | .answer i result => do
      let f ← s.flights[i]?
      guard f.asks
      return { s with flights := s.flights.set i { f with answer := some result } }
  | .deliver i takeOver => do
      let f ← s.flights[i]?
      let message ← f.message s.now
      let t := s.called (s.pool.perform ⟨.handle message, s.now, takeOver⟩)
        (s.cutShort message (s.flights.eraseIdx i))
      return t.lapse f.connection.toList
  | .event i event takeOver => do
      let f ← s.flights[i]?
      let connection ← f.connection
      guard (connection ∉ s.over_)
      let t := s.called (s.pool.perform
        ⟨.handle (.connection connection.1 connection.2 event), s.now, takeOver⟩) s.flights
      return if isClosed event then t.lapse [connection] else t

/-- A new pool, with nothing under way. -/
def start (config : PoolConfig) (now : ℕ) : System :=
  { pool := .new config
    now := now
    flights := []
    over_ := []
    started := 0
    tenure := 0
    births := fun _ => 0
    latest := none
    reported := [] }

end MatrixRtc.PoolTasks

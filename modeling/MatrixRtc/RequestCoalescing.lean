import MatrixRtc.StepRuns
import Mathlib.Data.Nat.Notation
import Mathlib.Tactic.SplitIfs

/-!
# Concurrent requests for a key distribution

`ensure_key_distribution` runs in the session's refresh and in its upkeep, on clones of
one manager. Its two flags are behind a mutex each. Every acquisition is one step here,
and a rollout is suspended between its reading of the roster and its end. A call that
finds a distribution in progress keeps that mutex while it acquires the other one.
What a rollout does, and whether it fails, does not matter to these flags.
-/
namespace MatrixRtc.RequestCoalescing
open StepRuns

/-- Where a call of `ensure_key_distribution` stands. -/
inductive Point where
  | called
  /-- Found a distribution in progress, and still holds that flag's mutex. -/
  | scheduling
  /-- Its next rollout has not read the roster. -/
  | starting
  | rolling
  | rolled
  /-- Took no request: the loop is over, the flag not cleared. -/
  | closing
  | returned
deriving DecidableEq, Repr

namespace Point

/-- The call is the one distribution in progress. -/
def distributing : Point → Bool
  | starting | rolling | rolled | closing => true
  | called | scheduling | returned => false

/-- The call still looks for a request before its loop is over. -/
def looping : Point → Bool
  | starting | rolling | rolled => true
  | called | scheduling | closing | returned => false

theorem distributing_cases {p : Point} (h : p.distributing = true) :
    p.looping = true ∨ p = .closing := by
  cases p <;> first | exact Or.inl rfl | exact Or.inr rfl | cases h

end Point

/-- A call, with the number of readings of the roster made before it. -/
structure Call where
  before : ℕ
  point : Point
deriving DecidableEq, Repr

structure System where
  manageMediaKeys : Bool
  keyDistributionInProgress : Bool
  needNewDistribution : Bool
  /-- the call that keeps the mutex of `key_distribution_in_progress` -/
  holder : Option ℕ
  calls : ℕ → Option Call
  made : ℕ
  /-- how often a rollout has read the roster -/
  reads : ℕ

def start (manageMediaKeys : Bool) : System :=
  ⟨manageMediaKeys, false, false, none, fun _ => none, 0, 0⟩

namespace System

def standing (s : System) (id : ℕ) (point : Point) : Option Call :=
  (s.calls id).filter fun call => call.point = point

def move (s : System) (id : ℕ) (call : Call) (point : Point) : System :=
  { s with calls := Function.update s.calls id (some { call with point := point }) }

/-- A call is made; one on a manager that does not manage keys returns at once. -/
def call (s : System) : System :=
  { s with
    calls := Function.update s.calls s.made
      (some ⟨s.reads, if s.manageMediaKeys then .called else .returned⟩)
    made := s.made + 1 }

/-- The first acquisition: to schedule a follow-up, or to distribute. -/
def enter (s : System) (id : ℕ) (call : Call) : System :=
  if s.keyDistributionInProgress then { s.move id call .scheduling with holder := some id }
  else { s.move id call .starting with keyDistributionInProgress := true }

def schedule (s : System) (id : ℕ) (call : Call) : System :=
  { s.move id call .returned with needNewDistribution := true, holder := none }

def read (s : System) (id : ℕ) (call : Call) : System :=
  { s.move id call .rolling with reads := s.reads + 1 }

/-- `std::mem::take` of the request, and another round if there was one. -/
def take (s : System) (id : ℕ) (call : Call) : System :=
  { s.move id call (if s.needNewDistribution then .starting else .closing) with
    needNewDistribution := false }

def clear (s : System) (id : ℕ) (call : Call) : System :=
  { s.move id call .returned with keyDistributionInProgress := false }

/-- The future is dropped where it is suspended. -/
def drop (s : System) (id : ℕ) : System :=
  { s with calls := Function.update s.calls id none }

end System

inductive Action where
  | call
  | enter (id : ℕ)
  | schedule (id : ℕ)
  | read (id : ℕ)
  | finish (id : ℕ)
  | take (id : ℕ)
  | clear (id : ℕ)
  | drop (id : ℕ)
deriving DecidableEq, Repr

/-- A mutex that a call keeps is not acquired by another. -/
def step (s : System) : Action → Option System
  | .call => some s.call
  | .enter id =>
      if s.holder = none then (s.standing id .called).map fun call => s.enter id call else none
  | .schedule id => (s.standing id .scheduling).map fun call => s.schedule id call
  | .read id => (s.standing id .starting).map fun call => s.read id call
  | .finish id => (s.standing id .rolling).map fun call => s.move id call .rolled
  | .take id => (s.standing id .rolled).map fun call => s.take id call
  | .clear id =>
      if s.holder = none then (s.standing id .closing).map fun call => s.clear id call else none
  | .drop id => (s.standing id .rolling).map fun _ => s.drop id

/-- A distribution that is running reads the roster again before it returns. -/
def Pending (s : System) : Prop :=
  ∃ id call, s.calls id = some call ∧
    (call.point = .starting ∨ call.point.looping = true ∧ s.needNewDistribution = true)

/-- No request is lost, and nothing is left behind by the last call. -/
structure Distributed (s : System) : Prop where
  served : ∀ id call, s.calls id = some call → call.point = .returned →
    call.before < s.reads ∨ Pending s
  idle : (∀ id call, s.calls id = some call → call.point = .returned) →
    s.keyDistributionInProgress = false ∧ s.needNewDistribution = false

/-- The manager manages keys, no distribution is dropped, and no request is scheduled
with one that no longer looks for it. -/
def Seen (s : System) : Action → Prop
  | .call => s.manageMediaKeys = true
  | .schedule _ => ∀ id < s.made, s.standing id .closing = none
  | .drop _ => False
  | _ => True

instance Seen.decidable (s : System) : DecidablePred (Seen s)
  | .call => inferInstanceAs (Decidable (_ = _))
  | .schedule _ => inferInstanceAs (Decidable (∀ id < s.made, _ = _))
  | .drop _ => isFalse id
  | .enter _ | .read _ | .finish _ | .take _ | .clear _ => isTrue trivial

theorem standing_eq_some {s : System} {id : ℕ} {point : Point} {call : Call} :
    s.standing id point = some call ↔ s.calls id = some call ∧ call.point = point := by
  simp [System.standing, Option.filter_eq_some_iff]

/-- What a step does, with the state it needs. -/
inductive ActionStep (s : System) : Action → System → Prop
  | call : ActionStep s .call s.call
  | schedules {id : ℕ} {call : Call} : s.calls id = some call → call.point = .called →
      s.holder = none → s.keyDistributionInProgress = true →
      ActionStep s (.enter id) { s.move id call .scheduling with holder := some id }
  | starts {id : ℕ} {call : Call} : s.calls id = some call → call.point = .called →
      s.holder = none → s.keyDistributionInProgress = false →
      ActionStep s (.enter id) { s.move id call .starting with keyDistributionInProgress := true }
  | schedule {id : ℕ} {call : Call} : s.calls id = some call → call.point = .scheduling →
      ActionStep s (.schedule id) (s.schedule id call)
  | read {id : ℕ} {call : Call} : s.calls id = some call → call.point = .starting →
      ActionStep s (.read id) (s.read id call)
  | finish {id : ℕ} {call : Call} : s.calls id = some call → call.point = .rolling →
      ActionStep s (.finish id) (s.move id call .rolled)
  | take {id : ℕ} {call : Call} : s.calls id = some call → call.point = .rolled →
      ActionStep s (.take id) (s.take id call)
  | clear {id : ℕ} {call : Call} : s.calls id = some call → call.point = .closing →
      s.holder = none → ActionStep s (.clear id) (s.clear id call)
  | drop {id : ℕ} {call : Call} : s.calls id = some call → call.point = .rolling →
      ActionStep s (.drop id) (s.drop id)

theorem actionStep {s t : System} {a : Action} (h : step s a = some t) : ActionStep s a t := by
  cases a with
  | call =>
      cases h
      exact .call
  | enter id =>
      simp only [step, Option.ite_none_right_eq_some] at h
      obtain ⟨free, h⟩ := h
      obtain ⟨call, here, rfl⟩ := Option.map_eq_some_iff.mp h
      obtain ⟨live, point⟩ := standing_eq_some.mp here
      unfold System.enter
      split_ifs with busy
      · exact .schedules live point free busy
      · exact .starts live point free (Bool.not_eq_true _ ▸ busy)
  | schedule id =>
      obtain ⟨call, here, rfl⟩ := Option.map_eq_some_iff.mp h
      obtain ⟨live, point⟩ := standing_eq_some.mp here
      exact .schedule live point
  | read id =>
      obtain ⟨call, here, rfl⟩ := Option.map_eq_some_iff.mp h
      obtain ⟨live, point⟩ := standing_eq_some.mp here
      exact .read live point
  | finish id =>
      obtain ⟨call, here, rfl⟩ := Option.map_eq_some_iff.mp h
      obtain ⟨live, point⟩ := standing_eq_some.mp here
      exact .finish live point
  | take id =>
      obtain ⟨call, here, rfl⟩ := Option.map_eq_some_iff.mp h
      obtain ⟨live, point⟩ := standing_eq_some.mp here
      exact .take live point
  | clear id =>
      simp only [step, Option.ite_none_right_eq_some] at h
      obtain ⟨free, h⟩ := h
      obtain ⟨call, here, rfl⟩ := Option.map_eq_some_iff.mp h
      obtain ⟨live, point⟩ := standing_eq_some.mp here
      exact .clear live point free
  | drop id =>
      obtain ⟨call, here, rfl⟩ := Option.map_eq_some_iff.mp h
      obtain ⟨live, point⟩ := standing_eq_some.mp here
      exact .drop live point

/-- The call that distributes, if one does, and where it stands. -/
abbrev Runner := Option (ℕ × Point)

/-- The runner reads the roster again. -/
def waits (runner : Runner) (need : Bool) : Bool :=
  runner.any fun r => r.2 == .starting || r.2.looping && need

/-- What holds of each call between the steps of a run whose requests are seen. -/
structure CallOk (s : System) (runner : Runner) (id : ℕ) (call : Call) : Prop where
  numbered : id < s.made
  before_le : call.before ≤ s.reads
  distributing : call.point.distributing = true ↔ runner.map Prod.fst = some id
  scheduling : call.point = .scheduling → s.holder = some id ∧ runner.isSome = true
  ownRead : call.point.distributing = true → call.point ≠ .starting → call.before < s.reads
  served : call.point = .returned →
    call.before < s.reads ∨ waits runner s.needNewDistribution = true

structure Inv (s : System) (runner : Runner) : Prop where
  progress : s.keyDistributionInProgress = runner.isSome
  requested : s.needNewDistribution = true → runner.any (·.2.looping) = true
  runs : ∀ id point, runner = some (id, point) →
    point.distributing = true ∧ ∃ call, s.calls id = some call ∧ call.point = point
  calls : ∀ id call, s.calls id = some call → CallOk s runner id call

theorem start_inv (manageMediaKeys : Bool) : Inv (start manageMediaKeys) none := by
  constructor
  · rfl
  · intro need
    cases need
  · intro id point eq
    cases eq
  · intro id call live
    cases live

theorem Inv.runner_eq {s : System} {runner : Runner} (inv : Inv s runner) {id : ℕ} {call : Call}
    (live : s.calls id = some call) (h : call.point.distributing = true) :
    runner = some (id, call.point) := by
  have mine := (inv.calls id call live).distributing.mp h
  obtain ⟨⟨id', point⟩, eq, rfl⟩ := Option.map_eq_some_iff.mp mine
  obtain ⟨-, call', live', rfl⟩ := inv.runs id' point eq
  cases live.symm.trans live'
  exact eq

/-- One call moves: what it is then has to be said of it and of the others. -/
theorem Inv.move {s t : System} {runner runner' : Runner} (inv : Inv s runner) (id : ℕ)
    (call : Call) (point : Point) (moved : t.calls = (s.move id call point).calls)
    (progress : t.keyDistributionInProgress = runner'.isSome)
    (requested : t.needNewDistribution = true → runner'.any (·.2.looping) = true)
    (runs : ∀ r ∈ runner', r = (id, point) ∧ point.distributing = true ∨ r ∈ runner ∧ r.1 ≠ id)
    (own : CallOk t runner' id { call with point := point })
    (others : ∀ id' call', id' ≠ id → CallOk s runner id' call' → CallOk t runner' id' call') :
    Inv t runner' := by
  constructor
  · exact progress
  · exact requested
  · intro id' point' eq
    rcases runs _ eq with ⟨same, distributing⟩ | ⟨old, other⟩
    · cases same
      exact ⟨distributing, { call with point := point }, by simp [moved, System.move], rfl⟩
    · obtain ⟨distributing, call', live', here⟩ := inv.runs id' point' old
      refine ⟨distributing, call', ?_, here⟩
      rw [moved]
      exact (Function.update_of_ne other _ _).trans live'
  · intro id' call' live'
    rw [moved] at live'
    simp only [System.move, Function.update_apply] at live'
    split_ifs at live' with same
    · cases live'
      rw [same]
      exact own
    · exact others id' call' same (inv.calls id' call' live')

theorem calls_move_self {s : System} (id : ℕ) (call : Call) (point : Point) :
    (s.move id call point).calls id = some { call with point := point } := by
  simp [System.move]

section Steps
variable {s : System} {runner : Runner} {id : ℕ} {call : Call}

theorem Inv.schedules (inv : Inv s runner) (live : s.calls id = some call)
    (point : call.point = .called) (free : s.holder = none)
    (busy : s.keyDistributionInProgress = true) :
    Inv { s.move id call .scheduling with holder := some id } runner := by
  have ok := inv.calls id call live
  have some_runner : runner.isSome = true := by rw [← inv.progress, busy]
  have not_runner : ¬ runner.map Prod.fst = some id := by
    rw [← ok.distributing, point]
    decide
  refine inv.move id call .scheduling rfl inv.progress inv.requested ?_ ?_ ?_
  · intro r member
    refine Or.inr ⟨member, ?_⟩
    intro same
    exact not_runner (by rw [member, Option.map_some, same])
  · exact ⟨ok.numbered, ok.before_le, iff_of_false Bool.false_ne_true not_runner,
      fun _ => ⟨rfl, some_runner⟩, by simp [Point.distributing], by simp⟩
  · intro id' call' other old
    refine ⟨old.numbered, old.before_le, old.distributing, ?_, old.ownRead, old.served⟩
    intro scheduling
    have held := (old.scheduling scheduling).1
    rw [free] at held
    cases held

theorem Inv.starts (inv : Inv s runner) (live : s.calls id = some call)
    (idle : s.keyDistributionInProgress = false) :
    Inv { s.move id call .starting with keyDistributionInProgress := true }
      (some (id, .starting)) := by
  have ok := inv.calls id call live
  have no_runner : runner = none := by
    rw [← Option.isNone_iff_eq_none, ← Option.not_isSome, ← inv.progress, idle]
    rfl
  subst no_runner
  refine inv.move id call .starting rfl rfl (fun _ => rfl) ?_ ?_ ?_
  · intro r member
    cases member
    exact Or.inl ⟨rfl, rfl⟩
  · exact ⟨ok.numbered, ok.before_le, iff_of_true rfl rfl, by simp, by simp, by simp⟩
  · intro id' call' other old
    refine ⟨old.numbered, old.before_le, ?_, ?_, old.ownRead, fun _ => Or.inr rfl⟩
    · rw [old.distributing]
      simp [Ne.symm other]
    · intro scheduling
      cases (old.scheduling scheduling).2

/-- A request scheduled with a runner that still looks for it. -/
theorem Inv.schedule (inv : Inv s runner) (live : s.calls id = some call)
    (point : call.point = .scheduling) (looping : runner.any (·.2.looping) = true) :
    Inv (s.schedule id call) runner := by
  have ok := inv.calls id call live
  have not_runner : ¬ runner.map Prod.fst = some id := by
    rw [← ok.distributing, point]
    decide
  have waiting : waits runner true = true := by
    cases runner with
    | none => cases looping
    | some r =>
        have looks : r.2.looping = true := looping
        simp [waits, looks]
  refine inv.move id call .returned rfl inv.progress (fun _ => looping) ?_ ?_ ?_
  · intro r member
    refine Or.inr ⟨member, ?_⟩
    intro same
    exact not_runner (by rw [member, Option.map_some, same])
  · exact ⟨ok.numbered, ok.before_le, iff_of_false Bool.false_ne_true not_runner,
      by simp, by simp [Point.distributing], fun _ => Or.inr waiting⟩
  · intro id' call' other old
    refine ⟨old.numbered, old.before_le, old.distributing, ?_, old.ownRead, fun _ => Or.inr waiting⟩
    intro scheduling
    have held := (old.scheduling scheduling).1
    rw [(ok.scheduling point).1] at held
    cases held
    exact absurd rfl other

/-- The runner goes on to another point of its loop, or out of it. -/
theorem Inv.runnerMoves {t : System} {point : Point} (inv : Inv s runner)
    (live : s.calls id = some call) (old : call.point.distributing = true)
    (new : point.distributing = true) (moved : t.calls = (s.move id call point).calls)
    (progress : t.keyDistributionInProgress = s.keyDistributionInProgress)
    (holder : t.holder = s.holder) (made : t.made = s.made) (reads : s.reads ≤ t.reads)
    (requested : t.needNewDistribution = true → point.looping = true)
    (own : point ≠ .starting → call.before < t.reads)
    (served : ∀ before ≤ s.reads,
      before < s.reads ∨ waits (some (id, call.point)) s.needNewDistribution = true →
        before < t.reads ∨ waits (some (id, point)) t.needNewDistribution = true) :
    Inv t (some (id, point)) := by
  have ok := inv.calls id call live
  have eq := inv.runner_eq live old
  subst eq
  refine inv.move id call point moved ?_ requested ?_ ?_ ?_
  · rw [progress, inv.progress]
    rfl
  · intro r member
    cases member
    exact Or.inl ⟨rfl, new⟩
  · refine ⟨made ▸ ok.numbered, Nat.le_trans ok.before_le reads, iff_of_true new rfl, ?_, ?_, ?_⟩
    · intro scheduling
      rw [show point = .scheduling from scheduling] at new
      cases new
    · intro _ later
      exact own later
    · intro returned
      rw [show point = .returned from returned] at new
      cases new
  · intro id' call' other ok'
    refine ⟨made ▸ ok'.numbered, Nat.le_trans ok'.before_le reads, ok'.distributing, ?_, ?_, ?_⟩
    · intro scheduling
      rw [holder]
      exact ⟨(ok'.scheduling scheduling).1, rfl⟩
    · intro distributing later
      exact Nat.lt_of_lt_of_le (ok'.ownRead distributing later) reads
    · intro returned
      exact served call'.before ok'.before_le (ok'.served returned)

theorem Inv.read (inv : Inv s runner) (live : s.calls id = some call)
    (point : call.point = .starting) : Inv (s.read id call) (some (id, .rolling)) := by
  have ok := inv.calls id call live
  have le := ok.before_le
  refine inv.runnerMoves live (by rw [point]; rfl) rfl rfl rfl rfl rfl (Nat.le_succ _) ?_ ?_ ?_
  · intro need
    rfl
  · intro later
    exact Nat.lt_succ_of_le le
  · intro before le' _
    exact Or.inl (Nat.lt_succ_of_le le')

theorem Inv.finish (inv : Inv s runner) (live : s.calls id = some call)
    (point : call.point = .rolling) : Inv (s.move id call .rolled) (some (id, .rolled)) := by
  have ok := inv.calls id call live
  refine inv.runnerMoves live (by rw [point]; rfl) rfl rfl rfl rfl rfl (Nat.le_refl _) ?_ ?_ ?_
  · intro need
    rfl
  · intro later
    exact ok.ownRead (by rw [point]; rfl) (by rw [point]; decide)
  · intro before le served
    rw [point] at served
    exact served

theorem Inv.take (inv : Inv s runner) (live : s.calls id = some call)
    (point : call.point = .rolled) : ∃ runner', Inv (s.take id call) runner' := by
  have ok := inv.calls id call live
  refine ⟨some (id, if s.needNewDistribution then .starting else .closing), ?_⟩
  have inside : (if s.needNewDistribution then Point.starting else .closing).distributing =
      true := by
    cases s.needNewDistribution <;> rfl
  refine inv.runnerMoves live (by rw [point]; rfl) inside rfl rfl rfl rfl (Nat.le_refl _) ?_ ?_ ?_
  · intro need
    cases need
  · intro later
    exact ok.ownRead (by rw [point]; rfl) (by rw [point]; decide)
  · intro before le served
    rw [point] at served
    cases need : s.needNewDistribution with
    | true => exact Or.inr rfl
    | false =>
        rw [need] at served
        rcases served with served | waiting
        · exact Or.inl served
        · cases waiting

theorem Inv.clear (inv : Inv s runner) (live : s.calls id = some call)
    (point : call.point = .closing) (free : s.holder = none) : Inv (s.clear id call) none := by
  have ok := inv.calls id call live
  have eq := inv.runner_eq live (by rw [point]; rfl)
  rw [point] at eq
  subst eq
  have no_request : s.needNewDistribution = false := by
    by_contra need
    cases inv.requested (Bool.not_eq_false _ ▸ need)
  have own_read := ok.ownRead (by rw [point]; rfl) (by rw [point]; decide)
  refine inv.move id call .returned rfl rfl ?_ ?_ ?_ ?_
  · intro need
    cases no_request.symm.trans need
  · intro r member
    cases member
  · exact ⟨ok.numbered, ok.before_le, iff_of_false Bool.false_ne_true (by simp), by simp,
      by simp [Point.distributing], fun _ => Or.inl own_read⟩
  · intro id' call' other old
    refine ⟨old.numbered, old.before_le, ?_, ?_, old.ownRead, ?_⟩
    · rw [old.distributing]
      simp [Ne.symm other]
    · intro scheduling
      have held := (old.scheduling scheduling).1
      rw [free] at held
      cases held
    · intro returned
      rcases old.served returned with served | waiting
      · exact Or.inl served
      · rw [no_request] at waiting
        cases waiting

theorem Inv.made (inv : Inv s runner) (managed : s.manageMediaKeys = true) :
    Inv s.call runner := by
  have not_runner (id : ℕ) (point : Point) (eq : runner = some (id, point)) : id ≠ s.made := by
    obtain ⟨-, call, live, -⟩ := inv.runs id point eq
    have := (inv.calls id call live).numbered
    omega
  have moved : s.call.calls = (s.move s.made ⟨s.reads, .called⟩ .called).calls := by
    simp [System.call, System.move, managed]
  refine inv.move s.made ⟨s.reads, .called⟩ .called moved inv.progress inv.requested ?_ ?_ ?_
  · intro r member
    exact Or.inr ⟨member, not_runner r.1 r.2 member⟩
  · refine ⟨Nat.lt_succ_self _, Nat.le_refl _, iff_of_false Bool.false_ne_true ?_, by simp,
      by simp [Point.distributing], by simp⟩
    intro mine
    obtain ⟨r, member, same⟩ := Option.map_eq_some_iff.mp mine
    exact not_runner r.1 r.2 member same
  · intro id call other old
    exact ⟨Nat.lt_succ_of_lt old.numbered, old.before_le, old.distributing, old.scheduling,
      old.ownRead, old.served⟩

theorem step_inv {t : System} {a : Action} (inv : ∃ runner, Inv s runner) (seen : Seen s a)
    (h : step s a = some t) : ∃ runner, Inv t runner := by
  obtain ⟨runner, inv⟩ := inv
  cases actionStep h with
  | call => exact ⟨runner, inv.made seen⟩
  | schedules live point free busy => exact ⟨runner, inv.schedules live point free busy⟩
  | starts live point free idle => exact ⟨_, inv.starts live idle⟩
  | @schedule id call live point =>
      have some_runner := ((inv.calls id call live).scheduling point).2
      obtain ⟨⟨id', point'⟩, eq⟩ := Option.isSome_iff_exists.mp some_runner
      obtain ⟨distributing, call', live', here⟩ := inv.runs id' point' eq
      have looping : runner.any (·.2.looping) = true := by
        rw [eq]
        rcases Point.distributing_cases distributing with looping | closing
        · exact looping
        · have closed := standing_eq_some.mpr ⟨live', here.trans closing⟩
          rw [seen id' (inv.calls id' call' live').numbered] at closed
          cases closed
      exact ⟨runner, inv.schedule live point looping⟩
  | read live point => exact ⟨_, inv.read live point⟩
  | finish live point => exact ⟨_, inv.finish live point⟩
  | take live point => exact inv.take live point
  | clear live point free => exact ⟨none, inv.clear live point free⟩
  | drop live point => exact seen.elim

theorem Inv.pending (inv : Inv s runner) (h : waits runner s.needNewDistribution = true) :
    Pending s := by
  cases runner with
  | none => cases h
  | some r =>
      obtain ⟨-, call, live, here⟩ := inv.runs r.1 r.2 rfl
      refine ⟨r.1, call, live, ?_⟩
      rw [here]
      simpa [waits] using h

theorem Inv.distributed (inv : Inv s runner) : Distributed s := by
  constructor
  · intro id call live returned
    rcases (inv.calls id call live).served returned with served | waiting
    · exact Or.inl served
    · exact Or.inr (inv.pending waiting)
  · intro ended
    have no_runner : runner = none := by
      cases eq : runner with
      | none => rfl
      | some r =>
          obtain ⟨distributing, call, live, here⟩ := inv.runs r.1 r.2 eq
          rw [← here, ended r.1 call live] at distributing
          cases distributing
    subst no_runner
    constructor
    · exact inv.progress
    · by_contra need
      cases inv.requested (Bool.not_eq_false _ ▸ need)

end Steps

theorem run_read {s : System} {id : ℕ} {call : Call} (live : s.calls id = some call)
    (point : call.point = .starting) : run step s [.read id] = some (s.read id call) := by
  have here := standing_eq_some.mpr ⟨live, point⟩
  simp [run, step, here]

theorem run_take_read {s : System} {id : ℕ} {call : Call} (live : s.calls id = some call)
    (point : call.point = .rolled) (need : s.needNewDistribution = true) :
    ∃ t, run step s [.take id, .read id] = some t ∧ s.reads < t.reads := by
  have here := standing_eq_some.mpr ⟨live, point⟩
  have taken : (s.take id call).calls id = some { call with point := .starting } := by
    simp [System.take, System.move, need]
  have first : step s (.take id) = some (s.take id call) := by simp [step, here]
  exact ⟨_, run_cons.mpr ⟨_, first, run_read taken rfl⟩, Nat.lt_succ_self _⟩

/-- Where one is pending, a running call reads the roster by steps of its own. -/
theorem pending_reads {s : System} (pending : Pending s) :
    ∃ id as t, (∀ a ∈ as, a ∈ [.finish id, .take id, .read id]) ∧
      run step s as = some t ∧ s.reads < t.reads := by
  obtain ⟨id, call, live, starting | ⟨looping, need⟩⟩ := pending
  · exact ⟨id, [.read id], _, by simp, run_read live starting, Nat.lt_succ_self _⟩
  · cases point : call.point with
    | starting => exact ⟨id, [.read id], _, by simp, run_read live point, Nat.lt_succ_self _⟩
    | rolling =>
        have here := standing_eq_some.mpr ⟨live, point⟩
        have first : step s (.finish id) = some (s.move id call .rolled) := by simp [step, here]
        obtain ⟨t, rest, more⟩ := run_take_read (calls_move_self id call .rolled) rfl need
        exact ⟨id, [.finish id, .take id, .read id], t, by simp, run_cons.mpr ⟨_, first, rest⟩,
          more⟩
    | rolled =>
        obtain ⟨t, both, more⟩ := run_take_read live point need
        exact ⟨id, [.take id, .read id], t, by simp, both, more⟩
    | called | scheduling | closing | returned =>
        rw [point] at looping
        cases looping

/-- In every run of any calls whose requests are seen, each request is answered by a
rollout that reads the roster after it was made; and a call that still owes one reads the roster
by its own steps alone. -/
theorem requests_distributed (manageMediaKeys : Bool) (as : List Action) {t : System}
    (seen : Admissible step Seen (start manageMediaKeys) as)
    (h : run step (start manageMediaKeys) as = some t) :
    Distributed t ∧ (Pending t → ∃ id more u, (∀ a ∈ more, a ∈ [.finish id, .take id, .read id]) ∧
      run step t more = some u ∧ t.reads < u.reads) := by
  have inv : ∃ runner, Inv t runner :=
    run_invariant (I := fun s => ∃ runner, Inv s runner) (fun _ _ _ => step_inv)
      ⟨none, start_inv manageMediaKeys⟩ seen h
  obtain ⟨runner, inv⟩ := inv
  exact ⟨inv.distributed, pending_reads⟩

/-- A request scheduled during the rollout is answered by the follow-up. -/
theorem requests_distributed_follow_up : ∃ t,
    run step (start true) [.call, .enter 0, .read 0, .call, .enter 1, .schedule 1, .finish 0,
      .take 0] = some t ∧ Distributed t := by
  refine ⟨_, rfl, ?_⟩
  exact (requests_distributed true [.call, .enter 0, .read 0, .call, .enter 1, .schedule 1,
    .finish 0, .take 0] (by decide) rfl).1

/-- A request scheduled after the last look for one is answered by no rollout, and is
left behind. -/
theorem not_always_distributed : ¬ ∀ (as : List Action) (t : System),
    run step (start true) as = some t → Distributed t := by
  intro always
  have broken := always [.call, .enter 0, .read 0, .finish 0, .take 0, .call, .enter 1,
    .schedule 1, .clear 0] _ rfl
  have left_behind := broken.idle ?_
  · exact absurd left_behind.2 (by decide)
  · intro id call live
    rcases id with _ | _ | id
    · cases live
      rfl
    · cases live
      rfl
    · cases live

end MatrixRtc.RequestCoalescing

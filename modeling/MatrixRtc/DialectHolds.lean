import MatrixRtc.StepRuns
import Mathlib.Data.List.Basic

/-!
# A dialect that is held

The dialect a room's sends are rendered in is kept in one map, and in another how many
sends still to go out hold it, with whether it was forgotten meanwhile. Each map has its
lock, and an operation that changes both takes them one after the other. Every operation
reads and writes only the entries of its room, so one room's are kept here. A step is one
acquisition; an operation between its two waits in a list. With the entries are kept the
holds that are out, and when the dialect was installed and cleared.
-/
namespace MatrixRtc.DialectHolds
open StepRuns

variable {D : Type}

/-- A room's entries in `dialects`, `counts` and `forgotten`. -/
structure Entries (D : Type) where
  dialect : Option D
  count : Option ℕ
  forgotten : Bool
deriving DecidableEq

namespace Entries

def new : Entries D := ⟨none, none, false⟩

/-- `set_dialect` under `holds`. -/
def unforget (e : Entries D) : Entries D := { e with forgotten := false }

/-- `set_dialect` under `dialects`; `OutboundDialect::None` is not stored. -/
def install (e : Entries D) (dialect : Option D) : Entries D := { e with dialect := dialect }

/-- `clear_dialect` under `holds`: forgotten once nothing holds it, or to be removed now. -/
def forget (e : Entries D) : Entries D × Bool :=
  if e.count.isSome then ({ e with forgotten := true }, false) else (e, true)

/-- `clear_dialect` and `release_hold` under `dialects`. -/
def remove (e : Entries D) : Entries D := { e with dialect := none }

/-- `hold_dialect`. -/
def hold (e : Entries D) : Entries D := { e with count := some (e.count.getD 0 + 1) }

/-- `release_hold` under `holds`: whether the dialect is to be removed. -/
def release (e : Entries D) : Entries D × Bool :=
  match e.count with
  | none => (e, false)
  | some count =>
      if 0 < count - 1 then ({ e with count := some (count - 1) }, false)
      else ({ e with count := none, forgotten := false }, e.forgotten)

end Entries

/-- A hold that is out: the dialect when it was taken, and whether one was set since. -/
structure Hold (D : Type) where
  taken : Option D
  set : Bool
deriving DecidableEq

structure Room (D : Type) where
  entries : Entries D
  holds : List (Hold D)
  /-- the dialects that are being set -/
  sets : List (Option D)
  /-- when the clear was called of each removal still to come -/
  removals : List ℕ
  clock : ℕ
  installedAt : ℕ
  /-- when the clear was called that left the dialect forgotten -/
  clearedAt : ℕ
  /-- a dialect was removed that was installed after the clear was called -/
  undone : Bool
deriving DecidableEq

inductive Action (D : Type) where
  | setDialect (dialect : Option D)
  | install (i : ℕ)
  | clearDialect
  | holdDialect
  | dropHold (i : ℕ)
  | remove (i : ℕ)
deriving DecidableEq

namespace Room

def new : Room D := ⟨.new, [], [], [], 1, 0, 0, false⟩

/-- The step is taken at `clock`. -/
def tick (r : Room D) : Room D := { r with clock := r.clock + 1 }

/-- A clear went as far as its second acquisition, or left its mark. -/
def clearDialect (r : Room D) : Room D :=
  let (entries, goesOn) := r.entries.forget
  if goesOn then { r with entries := entries, removals := r.removals ++ [r.clock] }
  else { r with entries := entries, clearedAt := r.clock }

/-- A hold was dropped, and takes the mark with it if it was the last. -/
def dropHold (r : Room D) (i : ℕ) : Room D :=
  let (entries, goesOn) := r.entries.release
  { r with
    entries := entries
    holds := r.holds.eraseIdx i
    removals := if goesOn then r.removals ++ [r.clearedAt] else r.removals }

def install (r : Room D) (i : ℕ) (dialect : Option D) : Room D :=
  { r with
    entries := r.entries.install dialect
    sets := r.sets.eraseIdx i
    holds := r.holds.map fun hold => { hold with set := true }
    installedAt := r.clock }

def remove (r : Room D) (i since : ℕ) : Room D :=
  { r with
    entries := r.entries.remove
    removals := r.removals.eraseIdx i
    undone := r.undone || r.entries.dialect.isSome && since ≤ r.installedAt }

def setDialect (r : Room D) (dialect : Option D) : Room D :=
  { r with entries := r.entries.unforget, sets := r.sets ++ [dialect] }

def holdDialect (r : Room D) : Room D :=
  { r with entries := r.entries.hold, holds := r.holds ++ [⟨r.entries.dialect, false⟩] }

/-- One acquisition. -/
def step (r : Room D) : Action D → Option (Room D)
  | .setDialect dialect => some (r.setDialect dialect).tick
  | .install i => r.sets[i]?.map fun dialect => (r.install i dialect).tick
  | .clearDialect => some r.clearDialect.tick
  | .holdDialect => some r.holdDialect.tick
  | .dropHold i => if i < r.holds.length then some (r.dropHold i).tick else none
  | .remove i => r.removals[i]?.map fun since => (r.remove i since).tick

/-- Each hold that is out still has the dialect it was taken with, unless one was set. -/
def Held (r : Room D) : Prop := ∀ hold ∈ r.holds, hold.set = false → r.entries.dialect = hold.taken

instance [DecidableEq D] (r : Room D) : Decidable r.Held :=
  inferInstanceAs (Decidable (∀ hold ∈ r.holds, _))

end Room

/-- No dialect is installed or held while a removal is to come that would take it, and none
is installed over a mark its own set came before. -/
def Undisturbed (r : Room D) : Action D → Prop
  | .install i => (r.sets[i]?.join).isSome = true → r.removals = [] ∧ r.entries.forgotten = false
  | .holdDialect => r.entries.dialect.isSome = true → r.removals = []
  | _ => True

instance (r : Room D) (a : Action D) : Decidable (Undisturbed r a) := by
  cases a <;> unfold Undisturbed <;> infer_instance

/-- The dialect is older than the clear called at `since`, if there is one. -/
def Room.Older (r : Room D) (since : ℕ) : Prop :=
  r.entries.dialect = none ∨ r.installedAt < since

/-- What is to be removed was there when its clear was called, and nothing holds it. -/
structure Inv (r : Room D) : Prop where
  count : r.entries.count = if r.holds = [] then none else some r.holds.length
  clock : r.installedAt < r.clock
  removals : ∀ since ∈ r.removals, r.Older since
  marked : r.entries.forgotten = true → r.Older r.clearedAt
  held : r.Held
  free : r.removals ≠ [] → ∀ hold ∈ r.holds, hold.set = false → r.entries.dialect = none
  kept : r.undone = false

section Steps
variable {r : Room D}

theorem inv_tick (inv : Inv r) : Inv r.tick where
  count := inv.count
  clock := Nat.lt_succ_of_lt inv.clock
  removals := inv.removals
  marked := inv.marked
  held := inv.held
  free := inv.free
  kept := inv.kept

theorem inv_setDialect (inv : Inv r) (dialect : Option D) : Inv (r.setDialect dialect) where
  count := inv.count
  clock := inv.clock
  removals := inv.removals
  marked forgotten := by cases forgotten
  held := inv.held
  free := inv.free
  kept := inv.kept

/-- A dialect is installed where nothing is to come that would take it. -/
theorem inv_install {i : ℕ} {dialect : Option D} (inv : Inv r)
    (quiet : dialect.isSome = true → r.removals = [] ∧ r.entries.forgotten = false) :
    Inv (r.install i dialect).tick := by
  have older : dialect.isSome = false → ∀ since, (r.install i dialect).Older since :=
    fun none_ since => .inl (Option.isSome_eq_false_iff.mp none_ |> Option.isNone_iff_eq_none.mp)
  have set : ∀ hold ∈ (r.install i dialect).holds, hold.set = true := by
    intro hold member
    obtain ⟨before, -, rfl⟩ := List.mem_map.mp member
    rfl
  refine ⟨?_, Nat.lt_succ_self _, fun since member => ?_, fun forgotten => ?_,
    fun hold member unset => ?_, fun _ hold member unset => ?_, inv.kept⟩
  · simpa [Room.install, Room.tick, Entries.install] using inv.count
  · cases some_ : dialect.isSome with
    | false => exact older some_ since
    | true =>
        have none_ := (quiet some_).1
        simp [Room.install, Room.tick, none_] at member
  · cases some_ : dialect.isSome with
    | false => exact older some_ _
    | true => cases forgotten.symm.trans (quiet some_).2
  · cases (set hold member).symm.trans unset
  · cases (set hold member).symm.trans unset

/-- A clear marks the dialect it finds held, and else goes on to remove it. -/
theorem inv_clearDialect (inv : Inv r) : Inv r.clearDialect := by
  unfold Room.clearDialect Entries.forget
  by_cases counted : r.entries.count.isSome = true
  · simp only [counted, if_true, Bool.false_eq_true, if_false]
    exact ⟨inv.count, inv.clock, inv.removals, fun _ => .inr inv.clock, inv.held, inv.free,
      inv.kept⟩
  · simp only [if_neg counted, if_true]
    have free : r.holds = [] := by
      by_contra some_
      rw [inv.count, if_neg some_] at counted
      exact counted rfl
    refine ⟨inv.count, inv.clock, fun since member => ?_, inv.marked, inv.held,
      fun _ hold member => ?_, inv.kept⟩
    · obtain before | now := List.mem_append.mp member
      · exact inv.removals since before
      · rw [List.mem_singleton.mp now]
        exact .inr inv.clock
    · have none_ : hold ∈ r.holds := member
      simp [free] at none_

theorem inv_holdDialect (inv : Inv r)
    (quiet : r.entries.dialect.isSome = true → r.removals = []) : Inv r.holdDialect := by
  refine ⟨?_, inv.clock, inv.removals, inv.marked, fun hold member unset => ?_,
    fun pending hold member unset => ?_, inv.kept⟩
  · have count : r.entries.count.getD 0 = r.holds.length := by
      rw [inv.count]
      split_ifs with none_
      · simp [none_]
      · rfl
    simp [Room.holdDialect, Entries.hold, count]
  · obtain before | now := List.mem_append.mp member
    · exact inv.held hold before unset
    · rw [List.mem_singleton.mp now]
      rfl
  · have none_ : r.entries.dialect = none := by
      by_contra some_
      exact pending (quiet (Option.isSome_iff_ne_none.mpr some_))
    exact none_

/-- The last hold to go takes the mark with it. -/
theorem inv_dropHold {i : ℕ} (inv : Inv r) (live : i < r.holds.length) : Inv (r.dropHold i) := by
  have count : r.entries.count = some r.holds.length := by
    rw [inv.count, if_neg (List.ne_nil_of_length_pos (by omega))]
  have erased : (r.holds.eraseIdx i).length = r.holds.length - 1 := by
    rw [List.length_eraseIdx_of_lt live]
  have left : ∀ hold ∈ r.holds.eraseIdx i, hold ∈ r.holds := fun _ => List.mem_of_mem_eraseIdx
  unfold Room.dropHold Entries.release
  rw [count]
  dsimp only
  by_cases last : 0 < r.holds.length - 1
  · simp only [if_pos last, Bool.false_eq_true, if_false]
    have more : r.holds.eraseIdx i ≠ [] := List.ne_nil_of_length_pos (by omega)
    refine ⟨?_, inv.clock, inv.removals, inv.marked,
      fun hold member => inv.held hold (left hold member),
      fun pending hold member => inv.free pending hold (left hold member), inv.kept⟩
    rw [if_neg more, erased]
  · simp only [if_neg last]
    have none_ : r.holds.eraseIdx i = [] := List.eq_nil_of_length_eq_zero (by omega)
    rw [none_]
    refine ⟨rfl, inv.clock, fun since member => ?_, fun forgotten => ?_, fun hold member => ?_,
      fun _ hold member => ?_, inv.kept⟩
    · dsimp only at member
      split_ifs at member with marked
      · obtain before | now := List.mem_append.mp member
        · exact inv.removals since before
        · rw [List.mem_singleton.mp now]
          exact inv.marked marked
      · exact inv.removals since member
    · cases forgotten
    · cases member
    · cases member

theorem inv_remove {i since : ℕ} (inv : Inv r) (there : r.removals[i]? = some since) :
    Inv (r.remove i since) := by
  have older := inv.removals since (List.mem_of_getElem? there)
  refine ⟨inv.count, inv.clock, fun _ _ => .inl rfl, fun _ => .inl rfl, fun hold member unset => ?_,
    fun _ _ _ _ => rfl, ?_⟩
  · have none_ := inv.free (List.ne_nil_of_mem (List.mem_of_getElem? there)) hold member unset
    rw [← inv.held hold member unset, none_]
    rfl
  · simp only [Room.remove, inv.kept, Bool.false_or, Bool.and_eq_false_imp, decide_eq_false_iff_not]
    intro some_
    obtain none_ | older := older
    · simp [none_] at some_
    · omega

theorem inv_step {t : Room D} {a : Action D} (inv : Inv r) (ok : Undisturbed r a)
    (h : r.step a = some t) : Inv t := by
  cases a with
  | setDialect dialect =>
      cases h
      exact inv_tick (inv_setDialect inv dialect)
  | install i =>
      obtain ⟨dialect, there, rfl⟩ := Option.map_eq_some_iff.mp h
      refine inv_install inv fun some_ => ok ?_
      simpa [there] using some_
  | clearDialect =>
      cases h
      exact inv_tick (inv_clearDialect inv)
  | holdDialect =>
      cases h
      exact inv_tick (inv_holdDialect inv ok)
  | dropHold i =>
      simp only [Room.step] at h
      split_ifs at h with live
      cases h
      exact inv_tick (inv_dropHold inv live)
  | remove i =>
      obtain ⟨since, there, rfl⟩ := Option.map_eq_some_iff.mp h
      exact inv_tick (inv_remove inv there)

end Steps

theorem inv_new : Inv (.new : Room D) where
  count := rfl
  clock := Nat.zero_lt_one
  removals _ member := by cases member
  marked forgotten := by cases forgotten
  held _ member := by cases member
  free _ _ member := by cases member
  kept := rfl

/-- A hold keeps its room's dialect, and no dialect is removed but by a clear called after
it was installed, where no operation comes between the two acquisitions of another. -/
theorem held_dialect_kept (trace : List (Action D)) (r : Room D)
    (reach : run Room.step .new trace = some r)
    (ok : Admissible Room.step Undisturbed .new trace) : r.Held ∧ r.undone = false := by
  have inv := run_invariant (fun _ _ _ inv ok h => inv_step inv ok h) inv_new ok reach
  exact ⟨inv.held, inv.kept⟩

section Runs

/-- A join's dialect, held for its leave when the room is detached. -/
def leaveHeld : List (Action String) :=
  [.setDialect (some "legacy"), .install 0, .holdDialect, .clearDialect]

/-- The leave goes out in the dialect it was held for, which is removed after it. -/
theorem removed_after_the_leave :
    ∃ r ∈ run Room.step .new (leaveHeld ++ [.dropHold 0, .remove 0]),
      r.entries.dialect = none ∧ r.Held ∧ r.undone = false := by
  have reached : ∃ r ∈ run Room.step .new (leaveHeld ++ [.dropHold 0, .remove 0]),
      r.entries.dialect = none := by decide
  obtain ⟨r, reach, removed⟩ := reached
  exact ⟨r, reach, removed, held_dialect_kept _ r reach (by decide)⟩

/-- A rejoin sets its dialect between the two halves of the hold's release, which removes
it; and a hold taken between the two halves of a clear loses its dialect. -/
theorem rejoin_loses_its_dialect :
    (∃ r ∈ run Room.step .new (leaveHeld ++
      [.dropHold 0, .setDialect (some "legacy"), .install 0, .remove 0]), r.undone = true) ∧
    ∃ r ∈ run Room.step .new [.setDialect (some "legacy"), .install 0, .clearDialect,
      .holdDialect, .remove 0], ¬ r.Held := by
  constructor <;> decide

end Runs

end MatrixRtc.DialectHolds

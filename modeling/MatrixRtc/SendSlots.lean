import MatrixRtc.Outboxes

/-!
# Who owns a slot of the outbox

Sends of all keys run, are dropped and are cancelled concurrently. The table of slots
is behind one mutex, and each acquisition of it is one step here, so that a step of
another send may stand between any two of them. In particular `Outbox::claim` looks
whether its send has ended under one acquisition and takes the slot under another. What
an attempt came to, the clock and the pokes only decide which acquisition of its own
a send makes next, so they are part of the action.
-/
namespace MatrixRtc.SendSlots
open Outboxes (SendFailure)

/-- What a send is; only the newest of a kind within a scope matters. -/
inductive SendKind where
  | membership
  | delayedLeave
  | supersededLeave (stickyKey : String)
  | keyDistribution (memberId : String)
  | notification
  | hand
  | reaction
  | rtcTransports
deriving DecidableEq, Repr

structure SlotKey where
  scope : String
  kind : SendKind
deriving DecidableEq, Repr

/-- A slot with the number of its sends still running, ended or not. -/
structure Slot extends Outboxes.Slot where
  waiting : ℕ
deriving DecidableEq, Repr

namespace Slot

def default : Slot := ⟨.empty, 0⟩

/-- A new send takes the slot and counts on it. -/
def register (s : Slot) : Slot :=
  { s with toSlot := s.toSlot.register, waiting := s.waiting + 1 }

def cancel (s : Slot) : Slot := { s with toSlot := s.toSlot.cancel }

@[simp] theorem cancel_generation (s : Slot) : s.cancel.generation = s.generation + 1 := rfl

@[simp] theorem cancel_waiting (s : Slot) : s.cancel.waiting = s.waiting := rfl

end Slot

/-- What a cancellation ends: one key, or every key of a scope. -/
inductive Target where
  | key (slot : SlotKey)
  | scope (name : String)
deriving DecidableEq, Repr

def Target.matches : Target → SlotKey → Bool
  | .key slot, other => slot == other
  | .scope name, other => other.scope == name

/-- `Inner::slots`. -/
abbrev Slots := SlotKey → Option Slot

namespace Slots

/-- `entry(key).or_default()`. -/
def entry (slots : Slots) (key : SlotKey) : Slot := (slots key).getD .default

def register (slots : Slots) (key : SlotKey) : Slots :=
  Function.update slots key (some (slots.entry key).register)

def cancelWhere (slots : Slots) (target : Target) : Slots :=
  fun key => (slots key).map fun slot => if target.matches key then slot.cancel else slot

/-- Why the send has ended, if it has; a key without a slot ends no send. -/
def ended (slots : Slots) (key : SlotKey) (generation : ℕ) : Option SendFailure :=
  (slots key).bind fun slot => slot.toSlot.ended generation

/-- The second acquisition of `Outbox::claim`. -/
def take (slots : Slots) (key : SlotKey) : Slots :=
  Function.update slots key (some { slots.entry key with inFlight := true })

/-- `Outbox::release`: a slot nobody is using any more is dropped. -/
def release (slots : Slots) (key : SlotKey) (update : Slot → Slot) : Slots :=
  match slots key with
  | none => slots
  | some slot =>
      if (update slot).waiting = 0 ∧ (update slot).inFlight = false then
        Function.update slots key none
      else Function.update slots key (some (update slot))

end Slots

/-- Where a send stands, between two acquisitions of its own. -/
inductive Point where
  /-- Not run yet, or waiting for the slot's attempt in flight: next it claims. -/
  | ready
  /-- Between the two acquisitions of `Outbox::claim`. -/
  | checked
  | attempting
  /-- The attempt is over and its outcome not looked at. -/
  | judging
  | backoff
  /-- `Outbox::run` is over, or its future dropped. -/
  | finished
deriving DecidableEq, Repr

structure PendingSend where
  key : SlotKey
  generation : ℕ
  point : Point
deriving DecidableEq, Repr

/-- What has taken effect, for the record only. -/
inductive Event where
  | registered (id : ℕ) (key : SlotKey)
  | cancelled (target : Target)
  | attempted (id : ℕ) (key : SlotKey)
deriving DecidableEq, Repr

/-- The table, the sends not dropped, by the order they were registered in, and
what has happened, the newest first. -/
structure System where
  slots : Slots
  sends : ℕ → Option PendingSend
  registered : ℕ
  events : List Event

namespace System

def new : System := ⟨fun _ => none, fun _ => none, 0, []⟩

/-- The send, if it stands at this point. -/
def standing (s : System) (id : ℕ) (point : Point) : Option PendingSend :=
  (s.sends id).filter fun send => send.point = point

/-- The send goes on to another point. -/
def move (s : System) (id : ℕ) (send : PendingSend) (point : Point) : System :=
  { s with sends := Function.update s.sends id (some { send with point := point }) }

/-- `Outbox::begin`. -/
def beginSend (s : System) (key : SlotKey) : System where
  slots := s.slots.register key
  sends := Function.update s.sends s.registered
    (some ⟨key, (s.slots.entry key).generation + 1, .ready⟩)
  registered := s.registered + 1
  events := .registered s.registered key :: s.events

/-- `Outbox::cancel` and `Outbox::cancel_scope`. -/
def cancelWhere (s : System) (target : Target) : System :=
  { s with slots := s.slots.cancelWhere target, events := .cancelled target :: s.events }

/-- The claim's second acquisition: busy, or the attempt starts. -/
def takeSlot (s : System) (id : ℕ) (send : PendingSend) : System :=
  if (s.slots.entry send.key).inFlight then s.move id send .ready
  else
    { s.move id send .attempting with
      slots := s.slots.take send.key
      events := .attempted id send.key :: s.events }

/-- `InFlight` is dropped: with the attempt over, or with the future that ran it. -/
def endFlight (s : System) (id : ℕ) (send : PendingSend) (dropped : Bool) : System :=
  { s.move id send (if dropped then .finished else .judging) with
    slots := s.slots.release send.key fun slot => { slot with inFlight := false } }

/-- `PendingSend` is dropped. -/
def dropSend (s : System) (id : ℕ) (send : PendingSend) : System :=
  { s with
    slots := s.slots.release send.key fun slot => { slot with waiting := slot.waiting - 1 }
    sends := Function.update s.sends id none }

/-- An acquisition that only looks whether the send has ended. -/
def look (s : System) (id : ℕ) (send : PendingSend) (point : Point) : System :=
  match s.slots.ended send.key send.generation with
  | some _ => s.move id send .finished
  | none => s.move id send point

end System

/-- One acquisition of the table, or a send going on without one. -/
inductive Action where
  | beginSend (key : SlotKey)
  | cancel (target : Target)
  /-- The claim's first acquisition. -/
  | check (id : ℕ)
  | take (id : ℕ)
  | endFlight (id : ℕ) (dropped : Bool)
  /-- The look after the attempt; whether its outcome is retried. -/
  | judge (id : ℕ) (retry : Bool)
  /-- The look after a poke in the backoff; whether the host came online. -/
  | poked (id : ℕ) (online : Bool)
  /-- The backoff is over. -/
  | wake (id : ℕ)
  /-- The deadline passed in a wait, or the future was dropped there. -/
  | stop (id : ℕ)
  | dropSend (id : ℕ)
deriving DecidableEq, Repr

def step (s : System) : Action → Option System
  | .beginSend key => some (s.beginSend key)
  | .cancel target => some (s.cancelWhere target)
  | .check id => (s.standing id .ready).map fun send => s.look id send .checked
  | .take id => (s.standing id .checked).map fun send => s.takeSlot id send
  | .endFlight id dropped =>
      (s.standing id .attempting).map fun send => s.endFlight id send dropped
  | .judge id retry =>
      (s.standing id .judging).map fun send =>
        s.look id send (if retry then .backoff else .finished)
  | .poked id online =>
      (s.standing id .backoff).map fun send =>
        s.look id send (if online then .ready else .backoff)
  | .wake id => (s.standing id .backoff).map fun send => s.move id send .ready
  | .stop id =>
      ((s.standing id .ready).or (s.standing id .backoff)).map fun send =>
        s.move id send .finished
  | .dropSend id => (s.standing id .finished).map fun send => s.dropSend id send

/-- What a step of the system does, with what it needs. -/
inductive ActionStep (s : System) : Action → System → Prop
  | beginSend (key : SlotKey) : ActionStep s (.beginSend key) (s.beginSend key)
  | cancel (target : Target) : ActionStep s (.cancel target) (s.cancelWhere target)
  | move {a : Action} {id : ℕ} {send : PendingSend} {point : Point} :
      s.sends id = some send → point ≠ .attempting → (∀ id, a ≠ .take id) →
      ActionStep s a (s.move id send point)
  | busy {id : ℕ} {send : PendingSend} :
      s.sends id = some send → (s.slots.entry send.key).inFlight = true →
      ActionStep s (.take id) (s.move id send .ready)
  | attempt {id : ℕ} {send : PendingSend} :
      s.sends id = some send → send.point = .checked →
      (s.slots.entry send.key).inFlight = false →
      ActionStep s (.take id) (s.takeSlot id send)
  | endFlight {id : ℕ} {send : PendingSend} (dropped : Bool) :
      s.sends id = some send → send.point = .attempting →
      ActionStep s (.endFlight id dropped) (s.endFlight id send dropped)
  | dropSend {id : ℕ} {send : PendingSend} :
      s.sends id = some send → send.point = .finished →
      ActionStep s (.dropSend id) (s.dropSend id send)

namespace System

theorem standing_eq_some {s : System} {id : ℕ} {point : Point} {send : PendingSend} :
    s.standing id point = some send ↔ s.sends id = some send ∧ send.point = point := by
  simp [standing, Option.filter_eq_some_iff]

theorem look_move (s : System) (id : ℕ) (send : PendingSend) (point : Point) :
    ∃ next, (next = point ∨ next = .finished) ∧ s.look id send point = s.move id send next := by
  unfold look
  cases s.slots.ended send.key send.generation with
  | none => exact ⟨point, Or.inl rfl, rfl⟩
  | some failure => exact ⟨.finished, Or.inr rfl, rfl⟩

end System

theorem ActionStep.look {s : System} {a : Action} {id : ℕ} {send : PendingSend} {point : Point}
    (live : s.sends id = some send) (other : point ≠ .attempting) (act : ∀ id, a ≠ .take id) :
    ActionStep s a (s.look id send point) := by
  obtain ⟨next, which, eq⟩ := s.look_move id send point
  rw [eq]
  apply ActionStep.move live
  · rcases which with rfl | rfl
    · exact other
    · exact Point.noConfusion
  · exact act

theorem actionStep {s t : System} {a : Action} (h : step s a = some t) : ActionStep s a t := by
  cases a with
  | beginSend key =>
      cases h
      exact .beginSend key
  | cancel target =>
      cases h
      exact .cancel target
  | check id =>
      obtain ⟨send, at_, rfl⟩ := Option.map_eq_some_iff.mp h
      obtain ⟨live, -⟩ := System.standing_eq_some.mp at_
      exact .look live (by decide) (by simp)
  | take id =>
      obtain ⟨send, at_, rfl⟩ := Option.map_eq_some_iff.mp h
      obtain ⟨live, point⟩ := System.standing_eq_some.mp at_
      cases busy : (s.slots.entry send.key).inFlight with
      | false => exact .attempt live point busy
      | true =>
          simp only [System.takeSlot, busy, if_true]
          exact .busy live busy
  | endFlight id dropped =>
      obtain ⟨send, at_, rfl⟩ := Option.map_eq_some_iff.mp h
      obtain ⟨live, point⟩ := System.standing_eq_some.mp at_
      exact .endFlight dropped live point
  | judge id retry =>
      obtain ⟨send, at_, rfl⟩ := Option.map_eq_some_iff.mp h
      obtain ⟨live, -⟩ := System.standing_eq_some.mp at_
      exact .look live (by cases retry <;> decide) (by simp)
  | poked id online =>
      obtain ⟨send, at_, rfl⟩ := Option.map_eq_some_iff.mp h
      obtain ⟨live, -⟩ := System.standing_eq_some.mp at_
      exact .look live (by cases online <;> decide) (by simp)
  | wake id =>
      obtain ⟨send, at_, rfl⟩ := Option.map_eq_some_iff.mp h
      obtain ⟨live, -⟩ := System.standing_eq_some.mp at_
      exact .move live (by decide) (by simp)
  | stop id =>
      obtain ⟨send, at_, rfl⟩ := Option.map_eq_some_iff.mp h
      have live : s.sends id = some send := by
        rcases Option.or_eq_some_iff.mp at_ with ready | ⟨-, backoff⟩
        · exact (System.standing_eq_some.mp ready).1
        · exact (System.standing_eq_some.mp backoff).1
      exact .move live (by decide) (by simp)
  | dropSend id =>
      obtain ⟨send, at_, rfl⟩ := Option.map_eq_some_iff.mp h
      obtain ⟨live, point⟩ := System.standing_eq_some.mp at_
      exact .dropSend live point

end MatrixRtc.SendSlots

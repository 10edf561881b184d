import MatrixRtc.ListPlaces
import MatrixRtc.StepRuns
import Mathlib.Data.Option.Basic

/-!
# Opening rooms, and the subscription they share

The rooms of a client share one to-device subscription. Opening a room registers it, starts
the subscription if there is none, and attaches the room's feed; one room is opened at a
time. An opening that ends early, and a handle that is dropped, take the room out of the
registry, and the subscription stops with the last one. A step is what runs under one
lock, or up to the next await or lock: anything may happen between two.
-/
namespace MatrixRtc.RoomOpenings
open StepRuns

/-- The rooms a client holds by room id; the entry is weak. -/
abbrev RoomRegistry := List (String × ℕ)

/-- `RoomRegistry::register`: refused while the room id has an entry that is alive. -/
def RoomRegistry.register (registry : RoomRegistry) (alive : ℕ → Bool) (roomId : String)
    (room : ℕ) : Option RoomRegistry :=
  if (registry.lookup roomId).any alive then none
  else some ((roomId, room) :: registry.filter (·.1 != roomId))

/-- `RoomRegistry::unregister`. -/
def RoomRegistry.unregister (registry : RoomRegistry) (roomId : String) : RoomRegistry :=
  registry.filter (·.1 != roomId)

/-- How far a call of `open_with` is, and then the handle it returned. -/
inductive Phase where
  /-- waits for `opening` -/
  | queued
  | locked
  /-- registered, at the await of `ToDeviceFeeder::start` -/
  | starting
  /-- the subscription is there and not stored yet -/
  | started
  /-- at the await of `RoomFeeder::attach` -/
  | attaching
  /-- the opening ended early and is still registered -/
  | abandoned
  | unlocking
  /-- opened, still holding `opening` -/
  | returning
  /-- the handle of an open room -/
  | opened
  /-- a handle that gave up its feed and is still registered -/
  | detaching
  | detached
  | gone
deriving DecidableEq, Repr

/-- The registration is in place. -/
def Phase.registered : Phase → Bool
  | .starting | .started | .attaching | .abandoned | .returning | .opened | .detaching => true
  | .queued | .locked | .unlocking | .detached | .gone => false

/-- The call holds `opening`. -/
def Phase.locking : Phase → Bool
  | .locked | .starting | .started | .attaching | .abandoned | .unlocking | .returning => true
  | .queued | .opened | .detaching | .detached | .gone => false

/-- The call is past the start of the subscription. -/
def Phase.subscribed : Phase → Bool
  | .attaching | .returning | .opened | .detaching => true
  | .queued | .locked | .starting | .started | .abandoned | .unlocking | .detached | .gone => false

/-- The call is starting the subscription. -/
def Phase.subscribing : Phase → Bool
  | .starting | .started => true
  | .queued | .locked | .attaching | .abandoned | .unlocking | .returning | .opened
  | .detaching | .detached | .gone => false

structure Call where
  roomId : String
  room : ℕ
  phase : Phase
deriving DecidableEq, Repr

structure Client where
  registry : RoomRegistry
  /-- `to_device` is running -/
  toDevice : Bool
  /-- the call that holds `opening` -/
  opening : Option ℕ
  calls : List Call
  /-- the rooms that something outside the client holds -/
  outside : List ℕ
deriving DecidableEq, Repr

inductive Move where
  | lock
  | register
  | start
  | failStart
  | store
  | attach
  | failAttach
  | release
  | unlock
  | detach
  /-- the future at an await, or a detached handle, is dropped -/
  | drop
deriving DecidableEq, Repr

inductive Action where
  | openWith (roomId : String) (room : ℕ)
  | move (i : ℕ) (move : Move)
  | holdOutside (rooms : List ℕ)
deriving DecidableEq, Repr

namespace Client

def new : Client := ⟨[], false, none, [], []⟩

variable (c : Client)

/-- `Weak::strong_count` of a room is not zero. -/
def alive (room : ℕ) : Bool :=
  c.outside.contains room || c.calls.any fun call => call.room == room && call.phase != .gone

def moved (i : ℕ) (call : Call) (phase : Phase) : Client :=
  { c with calls := c.calls.set i { call with phase := phase } }

/-- `ClientShared::release`. -/
def release (roomId : String) : Client :=
  let registry := c.registry.unregister roomId
  { c with registry := registry, toDevice := c.toDevice && !registry.isEmpty }

/-- What `open_with` does under the lock of `to_device`. -/
def register (i : ℕ) (call : Call) : Client :=
  match c.registry.register c.alive call.roomId call.room with
  | none => c.moved i call .unlocking
  | some registry =>
      { c.moved i call (if c.toDevice then .attaching else .starting) with registry := registry }

def advance (i : ℕ) (call : Call) : Move → Phase → Option Client
  | .lock, .queued =>
      if c.opening = none then some { c.moved i call .locked with opening := some i } else none
  | .register, .locked => some (c.register i call)
  | .start, .starting => some (c.moved i call .started)
  | .failStart, .starting => some (c.moved i call .abandoned)
  | .store, .started => some { c.moved i call .attaching with toDevice := true }
  | .attach, .attaching => some (c.moved i call .returning)
  | .failAttach, .attaching => some (c.moved i call .abandoned)
  | .release, .abandoned => some ((c.release call.roomId).moved i call .unlocking)
  | .release, .detaching => some ((c.release call.roomId).moved i call .detached)
  | .unlock, .unlocking => some { c.moved i call .gone with opening := none }
  | .unlock, .returning => some { c.moved i call .opened with opening := none }
  | .detach, .opened => some (c.moved i call .detaching)
  | .drop, .queued => some (c.moved i call .gone)
  | .drop, .starting | .drop, .attaching => some (c.moved i call .abandoned)
  | .drop, .detached => some (c.moved i call .gone)
  | _, _ => none

def step : Action → Option Client
  | .openWith roomId room => some { c with calls := c.calls ++ [⟨roomId, room, .queued⟩] }
  | .move i move => c.calls[i]?.bind fun call => c.advance i call move call.phase
  | .holdOutside rooms => some { c with outside := rooms }

end Client

/-- The call has `roomId` registered, for its room. -/
def Registers (c : Client) (i : ℕ) (roomId : String) (room : ℕ) : Prop :=
  ∃ call, c.calls[i]? = some call ∧ call.phase.registered = true ∧ call.roomId = roomId ∧
    call.room = room

/-- The registry has an entry for each call that is registered, and for nothing else; one
call at a time is opening a room; and the subscription runs for the rooms past its start. -/
structure Inv (c : Client) : Prop where
  locks : ∀ (i : ℕ) (call : Call), c.calls[i]? = some call → call.phase.locking = true →
    c.opening = some i
  entries : ∀ roomId room, (roomId, room) ∈ c.registry ↔ ∃ i, Registers c i roomId room
  alone : ∀ i j roomId room room', Registers c i roomId room → Registers c j roomId room' →
    i = j
  running : ∀ (i : ℕ) (call : Call), c.calls[i]? = some call → call.phase.subscribed = true →
    c.toDevice = true
  starting : ∀ (i : ℕ) (call : Call), c.calls[i]? = some call → call.phase.subscribing = true →
    c.toDevice = false
  stopped : c.toDevice = true → c.registry ≠ []

section
variable {c : Client} {i : ℕ} {call : Call} {p : Phase}

theorem inv_new : Inv .new := by
  constructor <;> simp [Client.new, Registers]

theorem registers_moved_iff (h : c.calls[i]? = some call) {k : ℕ} {roomId : String} {room : ℕ} :
    Registers (c.moved i call p) k roomId room ↔
      k = i ∧ p.registered = true ∧ call.roomId = roomId ∧ call.room = room ∨
        k ≠ i ∧ Registers c k roomId room := by
  constructor
  · rintro ⟨call', listed, live, rfl, rfl⟩
    obtain ⟨rfl, rfl⟩ | ⟨other, listed⟩ := ListPlaces.of_set listed
    · exact .inl ⟨rfl, live, rfl, rfl⟩
    · exact .inr ⟨other, call', listed, live, rfl, rfl⟩
  · rintro (⟨rfl, live, rfl, rfl⟩ | ⟨other, call', listed, live, rfl, rfl⟩)
    · exact ⟨_, ListPlaces.set_at h, live, rfl, rfl⟩
    · have there : (c.moved i call p).calls[k]? = some call' := by
        rw [Client.moved, List.getElem?_set_ne other.symm, listed]
      exact ⟨call', there, live, rfl, rfl⟩

theorem registers_moved (h : c.calls[i]? = some call)
    (registered : p.registered = call.phase.registered) {k : ℕ} {roomId : String} {room : ℕ} :
    Registers (c.moved i call p) k roomId room ↔ Registers c k roomId room := by
  rw [registers_moved_iff h, registered]
  constructor
  · rintro (⟨rfl, live, same⟩ | ⟨-, there⟩)
    · exact ⟨call, h, live, same⟩
    · exact there
  · rintro ⟨call', listed, live, same⟩
    by_cases other : k = i
    · subst other
      cases h.symm.trans listed
      exact .inl ⟨rfl, live, same⟩
    · exact .inr ⟨other, call', listed, live, same⟩

/-- A move that neither registers nor releases the room, with `opening` and the
subscription as it leaves them. -/
theorem inv_moved (inv : Inv c) (h : c.calls[i]? = some call)
    (registered : p.registered = call.phase.registered) {opening : Option ℕ} {toDevice : Bool}
    (locks : ∀ (k : ℕ) (call' : Call), (c.moved i call p).calls[k]? = some call' →
      call'.phase.locking = true → opening = some k)
    (running : ∀ (k : ℕ) (call' : Call), (c.moved i call p).calls[k]? = some call' →
      call'.phase.subscribed = true → toDevice = true)
    (starting : ∀ (k : ℕ) (call' : Call), (c.moved i call p).calls[k]? = some call' →
      call'.phase.subscribing = true → toDevice = false)
    (stopped : toDevice = true → c.registry ≠ []) :
    Inv { c.moved i call p with opening := opening, toDevice := toDevice } where
  locks := locks
  entries roomId room :=
    (inv.entries roomId room).trans (exists_congr fun _ => (registers_moved h registered).symm)
  alone k j roomId room room' first second :=
    inv.alone k j roomId room room' ((registers_moved h registered).mp first)
      ((registers_moved h registered).mp second)
  running := running
  starting := starting
  stopped := stopped

theorem of_moved {P : ℕ → Phase → Prop} (new : P i p)
    (old : ∀ (k : ℕ) (call' : Call), c.calls[k]? = some call' → P k call'.phase) :
    ∀ (k : ℕ) (call' : Call), (c.moved i call p).calls[k]? = some call' → P k call'.phase := by
  intro k call' listed
  obtain ⟨rfl, rfl⟩ | ⟨-, listed⟩ := ListPlaces.of_set listed
  · exact new
  · exact old k call' listed

theorem inv_quiet (inv : Inv c) (h : c.calls[i]? = some call)
    (registered : p.registered = call.phase.registered)
    (locks : p.locking = true → call.phase.locking = true)
    (running : p.subscribed = true → c.toDevice = true)
    (starting : p.subscribing = true → c.toDevice = false) : Inv (c.moved i call p) := by
  have kept := @inv_moved c i call p inv h registered c.opening c.toDevice
  refine kept (of_moved (P := fun k q => q.locking = true → c.opening = some k) ?_ inv.locks)
    (of_moved (P := fun _ q => q.subscribed = true → c.toDevice = true) running inv.running)
    (of_moved (P := fun _ q => q.subscribing = true → c.toDevice = false) starting inv.starting)
    inv.stopped
  exact fun locking => inv.locks i call h (locks locking)

theorem inv_lock (inv : Inv c) (h : c.calls[i]? = some call) (queued : call.phase = .queued)
    (free : c.opening = none) : Inv { c.moved i call .locked with opening := some i } := by
  refine inv_moved inv h (by rw [queued]; rfl)
    (of_moved (P := fun k q => q.locking = true → some i = some k) (fun _ => rfl) ?others)
    (of_moved (P := fun _ q => q.subscribed = true → c.toDevice = true) nofun inv.running)
    (of_moved (P := fun _ q => q.subscribing = true → c.toDevice = false) nofun inv.starting)
    inv.stopped
  intro k call' listed locking
  cases free.symm.trans (inv.locks k call' listed locking)

theorem inv_unlock (inv : Inv c) (h : c.calls[i]? = some call)
    (registered : p.registered = call.phase.registered) (locking : call.phase.locking = true)
    (unlocks : p.locking = false) (running : p.subscribed = true → c.toDevice = true)
    (started : p.subscribing = false) : Inv { c.moved i call p with opening := none } := by
  have held := inv.locks i call h locking
  refine inv_moved inv h registered ?free
    (of_moved (P := fun _ q => q.subscribed = true → c.toDevice = true) running inv.running)
    (of_moved (P := fun _ q => q.subscribing = true → c.toDevice = false)
      (fun starting => by simp [started] at starting) inv.starting) inv.stopped
  intro k call' listed locking'
  obtain ⟨rfl, rfl⟩ | ⟨other, listed⟩ := ListPlaces.of_set listed
  · simp [unlocks] at locking'
  · exact absurd (Option.some.inj (held.symm.trans (inv.locks k call' listed locking'))).symm other

/-- Only the call that holds `opening` starts the subscription. -/
theorem inv_store (inv : Inv c) (h : c.calls[i]? = some call) (started : call.phase = .started) :
    Inv { c.moved i call .attaching with toDevice := true } := by
  have held := inv.locks i call h (by rw [started]; rfl)
  refine inv_moved inv h (by rw [started]; rfl)
    (of_moved (P := fun k q => q.locking = true → c.opening = some k) (fun _ => held) inv.locks)
    (fun _ _ _ _ => rfl) ?alone fun _ empty => ?entry
  case alone =>
    intro k call' listed starting
    obtain ⟨rfl, rfl⟩ | ⟨other, listed⟩ := ListPlaces.of_set listed
    · cases starting
    · have locking : call'.phase.locking = true := by
        cases phase : call'.phase <;> simp_all [Phase.subscribing, Phase.locking]
      exact absurd (Option.some.inj (held.symm.trans (inv.locks k call' listed locking))).symm
        other
  case entry =>
    have entry := (inv.entries call.roomId call.room).mpr
      ⟨i, call, h, by rw [started]; rfl, rfl, rfl⟩
    rw [show c.registry = [] from empty] at entry
    cases entry

theorem alive_of_registers {k : ℕ} {roomId : String} {room : ℕ}
    (registers : Registers c k roomId room) : c.alive room = true := by
  obtain ⟨call', listed, live, -, rfl⟩ := registers
  have there := List.mem_of_getElem? listed
  have here : call'.phase ≠ .gone := by
    intro gone
    rw [gone] at live
    cases live
  simp only [Client.alive, Bool.or_eq_true, List.any_eq_true]
  exact .inr ⟨call', there, by simp [here]⟩

theorem mem_unregister {registry : RoomRegistry} {roomId other : String} {room : ℕ} :
    (other, room) ∈ registry.unregister roomId ↔ (other, room) ∈ registry ∧ other ≠ roomId := by
  simp [RoomRegistry.unregister]

theorem unregistered_of_register (inv : Inv c) {roomId : String} {room : ℕ}
    {registry : RoomRegistry} (h : c.registry.register c.alive roomId room = some registry) :
    (∀ k room', ¬ Registers c k roomId room') ∧
      registry = (roomId, room) :: c.registry.unregister roomId := by
  unfold RoomRegistry.register at h
  split_ifs at h with live
  cases h
  refine ⟨fun k room' registers => live ?_, rfl⟩
  have entry := (inv.entries roomId room').mpr ⟨k, registers⟩
  cases found : c.registry.lookup roomId with
  | none => exact absurd rfl (ListPlaces.lookup_eq_none.mp found _ entry)
  | some first =>
      obtain ⟨j, owner⟩ := (inv.entries roomId first).mp (ListPlaces.mem_of_lookup found)
      simpa using alive_of_registers owner

theorem inv_register (inv : Inv c) (h : c.calls[i]? = some call) (locked : call.phase = .locked) :
    Inv (c.register i call) := by
  have held := inv.locks i call h (by rw [locked]; rfl)
  unfold Client.register
  cases result : c.registry.register c.alive call.roomId call.room with
  | none => exact inv_quiet inv h (by rw [locked]; rfl) (fun _ => by rw [locked]; rfl) nofun nofun
  | some registry =>
      obtain ⟨free, rfl⟩ := unregistered_of_register inv result
      dsimp only
      generalize hp : (if c.toDevice then Phase.attaching else Phase.starting) = p
      have live : p.registered = true := by rw [← hp]; split_ifs <;> rfl
      have registers {k : ℕ} {roomId : String} {room : ℕ} :
          Registers (c.moved i call p) k roomId room ↔
            k = i ∧ call.roomId = roomId ∧ call.room = room ∨ Registers c k roomId room := by
        rw [registers_moved_iff h, live]
        constructor
        · rintro (⟨rfl, -, same⟩ | ⟨-, there⟩)
          · exact .inl ⟨rfl, same⟩
          · exact .inr there
        · rintro (⟨rfl, same⟩ | there)
          · exact .inl ⟨rfl, rfl, same⟩
          · refine .inr ⟨?_, there⟩
            rintro rfl
            obtain ⟨call', listed, registered, -⟩ := there
            cases h.symm.trans listed
            rw [locked] at registered
            cases registered
      refine ⟨?locks, fun roomId room => ?entries, fun k j roomId room room' first second => ?alone,
        ?running, ?starting, fun _ => List.cons_ne_nil _ _⟩
      case locks =>
        exact of_moved (P := fun k q => q.locking = true → c.opening = some k) (fun _ => held)
          inv.locks
      case entries =>
        rw [List.mem_cons, mem_unregister, inv.entries]
        constructor
        · rintro (same | ⟨⟨k, there⟩, -⟩)
          · cases same
            exact ⟨i, registers.mpr (.inl ⟨rfl, rfl, rfl⟩)⟩
          · exact ⟨k, registers.mpr (.inr there)⟩
        · rintro ⟨k, there⟩
          obtain ⟨-, rfl, rfl⟩ | there := registers.mp there
          · exact .inl rfl
          · refine .inr ⟨⟨k, there⟩, ?_⟩
            rintro rfl
            exact free k room there
      case alone =>
        obtain ⟨rfl, rfl, -⟩ | there := registers.mp first
        · obtain ⟨rfl, -⟩ | other := registers.mp second
          · rfl
          · exact absurd other (free j room')
        · obtain ⟨rfl, rfl, -⟩ | other := registers.mp second
          · exact absurd there (free k room)
          · exact inv.alone k j roomId room room' there other
      case running =>
        refine of_moved (P := fun _ q => q.subscribed = true → c.toDevice = true) ?_ inv.running
        rw [← hp]
        split_ifs with runs
        · exact fun _ => runs
        · nofun
      case starting =>
        refine of_moved (P := fun _ q => q.subscribing = true → c.toDevice = false) ?_ inv.starting
        rw [← hp]
        split_ifs with runs
        · nofun
        · exact fun _ => by simpa using runs

theorem registered_of_subscribed (h : p.subscribed = true) : p.registered = true := by
  cases p <;> first | rfl | cases h

/-- A release leaves the subscription to the rooms that are still registered. -/
theorem inv_release (inv : Inv c) (h : c.calls[i]? = some call)
    (registered : call.phase.registered = true) (released : p.registered = false)
    (locks : p.locking = true → call.phase.locking = true) (settled : p.subscribing = false) :
    Inv ((c.release call.roomId).moved i call p) := by
  have entry : ∀ k (call' : Call), k ≠ i → c.calls[k]? = some call' →
      call'.phase.registered = true →
        (call'.roomId, call'.room) ∈ c.registry.unregister call.roomId := by
    intro k call' other listed live
    rw [mem_unregister]
    have registers : Registers c k call'.roomId call'.room := ⟨call', listed, live, rfl, rfl⟩
    refine ⟨(inv.entries _ _).mpr ⟨k, registers⟩, fun same => other ?_⟩
    exact inv.alone k i call.roomId call'.room call.room (same ▸ registers)
      ⟨call, h, registered, rfl, rfl⟩
  have registers {k : ℕ} {roomId : String} {room : ℕ} :
      Registers ((c.release call.roomId).moved i call p) k roomId room ↔
        k ≠ i ∧ Registers c k roomId room := by
    have moved := @registers_moved_iff (c.release call.roomId) i call p h k roomId room
    rw [moved, released]
    simp only [Bool.false_eq_true, false_and, and_false, false_or]
    rfl
  refine ⟨?locks, fun roomId room => ?entries, fun k j roomId room room' first second => ?alone,
    ?running, ?starting, fun running => ?stopped⟩
  case locks =>
    exact of_moved (P := fun k q => q.locking = true → c.opening = some k)
      (fun locking => inv.locks i call h (locks locking)) inv.locks
  case entries =>
    have listed : (roomId, room) ∈ c.registry.unregister call.roomId ↔
        ∃ k, k ≠ i ∧ Registers c k roomId room := by
      rw [mem_unregister, inv.entries]
      constructor
      · rintro ⟨⟨k, there⟩, other⟩
        refine ⟨k, ?_, there⟩
        rintro rfl
        obtain ⟨call', same, -, rfl, -⟩ := there
        cases h.symm.trans same
        exact other rfl
      · rintro ⟨k, other, there⟩
        refine ⟨⟨k, there⟩, ?_⟩
        rintro rfl
        exact other (inv.alone k i _ _ _ there ⟨call, h, registered, rfl, rfl⟩)
    exact listed.trans (exists_congr fun _ => registers.symm)
  case alone =>
    exact inv.alone k j roomId room room' (registers.mp first).2 (registers.mp second).2
  case running =>
    intro k call' listed subscribed
    obtain ⟨rfl, rfl⟩ | ⟨other, listed⟩ := ListPlaces.of_set listed
    · cases released.symm.trans (registered_of_subscribed subscribed)
    · have there := entry k call' other listed (registered_of_subscribed subscribed)
      have some_ : (c.registry.unregister call.roomId).isEmpty = false := by
        rw [← Bool.not_eq_true, List.isEmpty_iff]
        rintro empty
        rw [empty] at there
        cases there
      simp only [Client.moved, Client.release, some_, inv.running k call' listed subscribed]
      rfl
  case starting =>
    intro k call' listed subscribing
    obtain ⟨rfl, rfl⟩ | ⟨other, listed⟩ := ListPlaces.of_set listed
    · cases settled.symm.trans subscribing
    · simp only [Client.moved, Client.release, inv.starting k call' listed subscribing]
      rfl
  case stopped =>
    simp only [Client.moved, Client.release, Bool.and_eq_true, Bool.not_eq_true',
      List.isEmpty_eq_false_iff] at running ⊢
    exact running.2

theorem inv_advance {d : Client} {move : Move} (inv : Inv c) (h : c.calls[i]? = some call)
    (step : c.advance i call move call.phase = some d) : Inv d := by
  unfold Client.advance at step
  split at step
  · next queued =>
      split_ifs at step with free
      cases step
      exact inv_lock inv h queued free
  · next locked =>
      cases step
      exact inv_register inv h locked
  · next starting =>
      cases step
      exact inv_quiet inv h (by rw [starting]; rfl) (fun _ => by rw [starting]; rfl) nofun
        fun _ => inv.starting i call h (by rw [starting]; rfl)
  · next starting =>
      cases step
      exact inv_quiet inv h (by rw [starting]; rfl) (fun _ => by rw [starting]; rfl) nofun nofun
  · next started =>
      cases step
      exact inv_store inv h started
  · next attaching =>
      cases step
      exact inv_quiet inv h (by rw [attaching]; rfl) (fun _ => by rw [attaching]; rfl)
        (fun _ => inv.running i call h (by rw [attaching]; rfl)) nofun
  · next attaching =>
      cases step
      exact inv_quiet inv h (by rw [attaching]; rfl) (fun _ => by rw [attaching]; rfl) nofun nofun
  · next abandoned =>
      cases step
      exact inv_release inv h (by rw [abandoned]; rfl) rfl (fun _ => by rw [abandoned]; rfl) rfl
  · next detaching =>
      cases step
      exact inv_release inv h (by rw [detaching]; rfl) rfl nofun rfl
  · next unlocking =>
      cases step
      exact inv_unlock inv h (by rw [unlocking]; rfl) (by rw [unlocking]; rfl) rfl nofun rfl
  · next returning =>
      cases step
      exact inv_unlock inv h (by rw [returning]; rfl) (by rw [returning]; rfl) rfl
        (fun _ => inv.running i call h (by rw [returning]; rfl)) rfl
  · next opened =>
      cases step
      exact inv_quiet inv h (by rw [opened]; rfl) nofun
        (fun _ => inv.running i call h (by rw [opened]; rfl)) nofun
  · next queued =>
      cases step
      exact inv_quiet inv h (by rw [queued]; rfl) nofun nofun nofun
  · next starting =>
      cases step
      exact inv_quiet inv h (by rw [starting]; rfl) (fun _ => by rw [starting]; rfl) nofun nofun
  · next attaching =>
      cases step
      exact inv_quiet inv h (by rw [attaching]; rfl) (fun _ => by rw [attaching]; rfl) nofun nofun
  · next detached =>
      cases step
      exact inv_quiet inv h (by rw [detached]; rfl) nofun nofun nofun
  · cases step

/-- A call that has just been made holds nothing. -/
theorem inv_openWith (inv : Inv c) (roomId : String) (room : ℕ) :
    Inv { c with calls := c.calls ++ [⟨roomId, room, .queued⟩] } := by
  have before {P : Phase → Prop} (holds : ¬ P .queued) {k : ℕ} {call' : Call}
      (listed : (c.calls ++ [⟨roomId, room, .queued⟩])[k]? = some call')
      (there : P call'.phase) : c.calls[k]? = some call' := by
    obtain old | ⟨-, rfl⟩ := ListPlaces.of_append listed
    · exact old
    · exact absurd there holds
  have registers {k : ℕ} {roomId' : String} {room' : ℕ} :
      Registers { c with calls := c.calls ++ [⟨roomId, room, .queued⟩] } k roomId' room' ↔
        Registers c k roomId' room' := by
    constructor
    · rintro ⟨call', listed, live, same⟩
      exact ⟨call', before (P := fun q => q.registered = true) nofun listed live, live, same⟩
    · rintro ⟨call', listed, live, same⟩
      have there : k < c.calls.length := (List.getElem?_eq_some_iff.mp listed).1
      exact ⟨call', (List.getElem?_append_left there).trans listed, live, same⟩
  refine ⟨fun k call' listed locking => ?_, fun roomId' room' => ?_,
    fun k j roomId' room' room'' first second => ?_, fun k call' listed subscribed => ?_,
    fun k call' listed subscribing => ?_, inv.stopped⟩
  · exact inv.locks k call' (before (P := fun q => q.locking = true) nofun listed locking) locking
  · exact (inv.entries roomId' room').trans (exists_congr fun _ => registers.symm)
  · exact inv.alone k j roomId' room' room'' (registers.mp first) (registers.mp second)
  · exact inv.running k call'
      (before (P := fun q => q.subscribed = true) nofun listed subscribed) subscribed
  · exact inv.starting k call'
      (before (P := fun q => q.subscribing = true) nofun listed subscribing) subscribing

theorem inv_step {d : Client} (a : Action) (inv : Inv c) (step : c.step a = some d) : Inv d := by
  cases a with
  | openWith roomId room =>
      cases step
      exact inv_openWith inv roomId room
  | move i move =>
      obtain ⟨call, h, step⟩ := Option.bind_eq_some_iff.mp step
      exact inv_advance inv h step
  | holdOutside rooms =>
      cases step
      exact ⟨inv.locks, inv.entries, inv.alone, inv.running, inv.starting, inv.stopped⟩

end

/-- The subscription runs for the open rooms, and for no client without a room that is open
or being opened; it is started once at a time, and a room id is registered once. -/
structure Lifetime (c : Client) : Prop where
  running : ∀ call ∈ c.calls, call.phase = .opened →
    (call.roomId, call.room) ∈ c.registry ∧ c.toDevice = true
  stopped : (∀ call ∈ c.calls, call.phase.registered = false) → c.toDevice = false
  startedOnce : ∀ (i j : ℕ) (first second : Call), c.calls[i]? = some first →
    c.calls[j]? = some second → first.phase.subscribing = true →
    second.phase.subscribing = true → i = j ∧ c.toDevice = false
  registeredOnce : ∀ (i j : ℕ) (first second : Call), c.calls[i]? = some first →
    c.calls[j]? = some second → first.phase.registered = true →
    second.phase.registered = true → first.roomId = second.roomId → i = j
  entryOnce : ∀ roomId room room', (roomId, room) ∈ c.registry → (roomId, room') ∈ c.registry →
    room = room'

theorem locking_of_subscribing {p : Phase} (h : p.subscribing = true) : p.locking = true := by
  cases p <;> first | rfl | cases h

theorem lifetime_of_inv {c : Client} (inv : Inv c) : Lifetime c where
  running call member opened := by
    obtain ⟨i, h⟩ := List.mem_iff_getElem?.mp member
    have entry := (inv.entries call.roomId call.room).mpr
      ⟨i, call, h, by rw [opened]; rfl, rfl, rfl⟩
    exact ⟨entry, inv.running i call h (by rw [opened]; rfl)⟩
  stopped none_ := by
    rw [← Bool.not_eq_true]
    intro running
    obtain ⟨⟨roomId, room⟩, entry⟩ := List.exists_mem_of_ne_nil _ (inv.stopped running)
    obtain ⟨i, call, h, live, -⟩ := (inv.entries roomId room).mp entry
    cases (none_ call (List.mem_of_getElem? h)).symm.trans live
  startedOnce i j first second atFirst atSecond starts starts' := by
    have held := inv.locks i first atFirst (locking_of_subscribing starts)
    have held' := inv.locks j second atSecond (locking_of_subscribing starts')
    exact ⟨Option.some.inj (held.symm.trans held'), inv.starting i first atFirst starts⟩
  registeredOnce i j first second atFirst atSecond live live' same :=
    inv.alone i j first.roomId first.room second.room ⟨first, atFirst, live, rfl, rfl⟩
      ⟨second, atSecond, live', same.symm, rfl⟩
  entryOnce roomId room room' entry entry' := by
    obtain ⟨i, first⟩ := (inv.entries roomId room).mp entry
    obtain ⟨j, second⟩ := (inv.entries roomId room').mp entry'
    obtain rfl := inv.alone i j roomId room room' first second
    obtain ⟨call, h, -, -, rfl⟩ := first
    obtain ⟨call', h', -, -, rfl⟩ := second
    cases h.symm.trans h'
    rfl

theorem subscription_lifetime {c : Client} {actions : List Action}
    (h : run Client.step .new actions = some c) : Lifetime c :=
  lifetime_of_inv (run_invariant_of_step (fun _ a _ inv step => inv_step a inv step) inv_new h)

/-- A room is opened, another's opening is dropped, and the first room's handle. -/
def openedAndClosed : List Action :=
  [.openWith "!a" 0, .move 0 .lock, .move 0 .register, .move 0 .start, .move 0 .store,
    .move 0 .attach, .move 0 .unlock, .openWith "!b" 1, .move 1 .lock, .move 1 .register,
    .move 1 .drop, .move 1 .release, .move 1 .unlock, .move 0 .detach, .move 0 .release]

def closedRooms : Client := ⟨[], false, none, [⟨"!a", 0, .detached⟩, ⟨"!b", 1, .gone⟩], []⟩

theorem subscription_lifetime_closed :
    run Client.step .new openedAndClosed = some closedRooms ∧ Lifetime closedRooms := by
  have closes : run Client.step .new openedAndClosed = some closedRooms := by decide
  exact ⟨closes, subscription_lifetime closes⟩

/-- The last open room is gone and the subscription runs: another is being opened. -/
theorem kept_for_a_room_being_opened :
    (run Client.step .new
      [.openWith "!a" 0, .move 0 .lock, .move 0 .register, .move 0 .start, .move 0 .store,
        .move 0 .attach, .move 0 .unlock, .openWith "!b" 1, .move 1 .lock, .move 1 .register,
        .move 0 .detach, .move 0 .release, .move 0 .drop]).map
      (fun c => (c.calls.map Call.phase, c.toDevice)) = some ([.gone, .attaching], true) := by
  decide

end MatrixRtc.RoomOpenings

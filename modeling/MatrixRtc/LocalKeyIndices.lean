import MatrixRtc.ListPlaces
import MatrixRtc.StepRuns

/-!
# The key index of our senders

Each room has the frame cryptors of our tracks, which start at index 0, and a translator
that belongs to the handle that connected it. `set_local_key_index` remembers the index on
our own handle and moves the cryptors of its room; whatever makes new cryptors reasserts
the index afterwards, on the handle that notices. A take-over gives our handle a room of
another. Every lock and every await is a step of its own.
-/
namespace MatrixRtc.LocalKeyIndices
open StepRuns

structure Handle where
  session : Option ℕ := none
  localKeyIndex : Option UInt8 := none
  /-- the take-overs of this handle -/
  installs : ℕ := 0

/-- A room, the handle whose translator it has, the indices of our cryptors in it, and
the `Reconnected` events not translated yet. -/
structure Room where
  owner : ℕ
  cryptors : List UInt8 := []
  reconnected : ℕ := 0
deriving DecidableEq, Repr

/-- What a call, or the task it has spawned, does next. -/
inductive Task where
  | connecting (handle started : ℕ)
  | publishing (room : ℕ)
  | republishing (handle room : ℕ)
  | reasserting (handle : ℕ)
  | applying (handle : ℕ) (keyIndex : UInt8)
  | moving (room : ℕ) (keyIndex : UInt8)
  | done
deriving DecidableEq, Repr

structure System where
  handles : ℕ → Handle
  rooms : List Room
  tasks : List Task
  /-- the room given by a `hand_over` and not yet taken -/
  handover : Option ℕ
  /-- the index `set_local_key_index` was last called with -/
  lastSet : Option UInt8

inductive Action where
  | setLocalKeyIndex (keyIndex : UInt8)
  | publish
  | reconnect (handle : ℕ)
  | connected (i : ℕ) (ok : Bool)
  | published (i : ℕ)
  | publishFailed (i : ℕ)
  | republished (i : ℕ)
  | reassertLocalKeyIndex (i : ℕ)
  | currentSession (i : ℕ)
  | moveCryptors (i : ℕ)
  | handOver (handle : ℕ)
  | takeOver
  | restarted (room : ℕ) (renewed : List Bool)
  | translate (room : ℕ)

/-- Our own handle among the handles of the call. -/
def ownHandle : ℕ := 0

/-- The cryptors after a restart, the renewed ones at index 0. -/
def renew : List UInt8 → List Bool → List UInt8
  | [], _ => []
  | cryptors, [] => cryptors
  | c :: cryptors, renewed :: rest => (if renewed then 0 else c) :: renew cryptors rest

namespace System

def own (s : System) : Handle := s.handles ownHandle

def setTask (s : System) (i : ℕ) (task : Task) : System :=
  { s with tasks := s.tasks.set i task }

def spawn (s : System) (task : Task) : System := { s with tasks := s.tasks ++ [task] }

def setHandle (s : System) (handle : ℕ) (h : Handle) : System :=
  { s with handles := Function.update s.handles handle h }

/-- A track is published, with a frame cryptor at index 0. -/
def addCryptor (s : System) (room : ℕ) : System :=
  { s with rooms := s.rooms.modify room fun r => { r with cryptors := r.cryptors ++ [0] } }

/-- The room just connected replaces the handle's, unless it was taken over meanwhile. -/
def install (s : System) (i handle started : ℕ) : System :=
  if (s.handles handle).installs = started then
    { s.setHandle handle { s.handles handle with session := some s.rooms.length } with
      rooms := s.rooms ++ [⟨handle, [], 0⟩]
      tasks := s.tasks.set i (.republishing handle s.rooms.length) }
  else s.setTask i .done

end System

def step (s : System) : Action → Option System
  | .setLocalKeyIndex keyIndex =>
      some { (s.setHandle ownHandle { s.own with localKeyIndex := some keyIndex }).spawn
        (.applying ownHandle keyIndex) with lastSet := some keyIndex }
  | .publish =>
      match s.own.session with
      | none => some s
      | some room => some (s.spawn (.publishing room))
  | .reconnect handle => some (s.spawn (.connecting handle (s.handles handle).installs))
  | .connected i ok =>
      match s.tasks[i]? with
      | some (.connecting handle started) =>
          some (if ok then s.install i handle started else s.setTask i .done)
      | _ => none
  | .published i =>
      match s.tasks[i]? with
      | some (.publishing room) =>
          some ((s.addCryptor room).setTask i (.reasserting ownHandle))
      | some (.republishing handle room) =>
          -- only our own handle has tracks
          if handle = ownHandle then some (s.addCryptor room) else none
      | _ => none
  | .publishFailed i =>
      match s.tasks[i]? with
      | some (.publishing _) => some (s.setTask i .done)
      | _ => none
  | .republished i =>
      match s.tasks[i]? with
      | some (.republishing handle _) => some (s.setTask i (.reasserting handle))
      | _ => none
  | .reassertLocalKeyIndex i =>
      match s.tasks[i]? with
      | some (.reasserting handle) =>
          match (s.handles handle).localKeyIndex with
          | none => some (s.setTask i .done)
          | some keyIndex => some (s.setTask i (.applying handle keyIndex))
      | _ => none
  | .currentSession i =>
      match s.tasks[i]? with
      | some (.applying handle keyIndex) =>
          match (s.handles handle).session with
          | none => some (s.setTask i .done)
          | some room => some (s.setTask i (.moving room keyIndex))
      | _ => none
  | .moveCryptors i =>
      match s.tasks[i]? with
      | some (.moving room keyIndex) =>
          some { s.setTask i .done with
            rooms := s.rooms.modify room fun r =>
              { r with cryptors := r.cryptors.map fun _ => keyIndex } }
      | _ => none
  | .handOver handle =>
      match (s.handles handle).session with
      | none => none
      | some room => some { s with handover := some room }
  | .takeOver =>
      match s.handover with
      | none => none
      | some room =>
          some { (s.setHandle ownHandle { s.own with
              session := some room, installs := s.own.installs + 1 }).spawn
            (.republishing ownHandle room) with handover := none }
  | .restarted room renewed =>
      match s.rooms[room]? with
      | none => none
      | some r =>
          some { s with
            rooms := s.rooms.set room { r with
              cryptors := renew r.cryptors renewed, reconnected := r.reconnected + 1 } }
  | .translate room =>
      match s.rooms[room]? with
      | some ⟨owner, cryptors, reconnected + 1⟩ =>
          some ({ s with rooms := s.rooms.set room ⟨owner, cryptors, reconnected⟩ }.spawn
            (.reasserting owner))
      | _ => none

/-- A call whose handles have not connected. -/
def start : System where
  handles := fun _ => {}
  rooms := []
  tasks := []
  handover := none
  lastSet := none

/-- Nothing is in progress and every room event was translated. -/
def Settled (s : System) : Prop :=
  (∀ task ∈ s.tasks, task = .done) ∧ s.handover = none ∧ ∀ r ∈ s.rooms, r.reconnected = 0

/-- Each cryptor of ours in the room of our handle has the index set last. -/
def IndexKept (s : System) : Prop :=
  Settled s → ∀ keyIndex ∈ s.lastSet, ∀ room ∈ s.own.session, ∀ r ∈ s.rooms[room]?,
    ∀ c ∈ r.cryptors, c = keyIndex

/-- The index a task is about to move cryptors to. -/
def Task.index : Task → Option UInt8
  | .applying _ keyIndex | .moving _ keyIndex => some keyIndex
  | .connecting _ _ | .publishing _ | .republishing _ _ | .reasserting _ | .done => none

/-- An index is set when no other one read before is still to be applied; and once an index
was set, a room whose translator is another handle's renews none of our cryptors. -/
def InTurn (s : System) : Action → Prop
  | .setLocalKeyIndex keyIndex => ∀ task ∈ s.tasks, ∀ k ∈ task.index, k = keyIndex
  | .restarted room renewed => ∀ r ∈ s.rooms[room]?,
      r.owner = ownHandle ∨ s.own.localKeyIndex = none ∨ renew r.cryptors renewed = r.cryptors
  | .publish | .reconnect _ | .connected _ _ | .published _ | .publishFailed _
  | .republished _ | .reassertLocalKeyIndex _ | .currentSession _ | .moveCryptors _
  | .handOver _ | .takeOver | .translate _ => True

instance : DecidablePred Settled := fun s =>
  inferInstanceAs (Decidable ((∀ task ∈ s.tasks, _) ∧ _ ∧ ∀ r ∈ s.rooms, _))

instance : DecidablePred IndexKept := fun s =>
  inferInstanceAs (Decidable (Settled s → ∀ keyIndex ∈ s.lastSet, ∀ room ∈ s.own.session,
    ∀ r ∈ s.rooms[room]?, ∀ c ∈ r.cryptors, c = keyIndex))

instance (s : System) : DecidablePred (InTurn s)
  | .setLocalKeyIndex keyIndex =>
      inferInstanceAs (Decidable (∀ task ∈ s.tasks, ∀ k ∈ task.index, k = keyIndex))
  | .restarted room renewed => inferInstanceAs (Decidable (∀ r ∈ s.rooms[room]?,
      r.owner = ownHandle ∨ s.own.localKeyIndex = none ∨ renew r.cryptors renewed = r.cryptors))
  | .publish | .reconnect _ | .connected _ _ | .published _ | .publishFailed _
  | .republished _ | .reassertLocalKeyIndex _ | .currentSession _ | .moveCryptors _
  | .handOver _ | .takeOver | .translate _ => isTrue trivial

/-- The task ends by moving the cryptors of the room our handle is then on. -/
def Corrects (room : ℕ) : Task → Prop
  | .republishing handle _ | .reasserting handle | .applying handle _ => handle = ownHandle
  | .moving r _ => r = room
  | .connecting _ _ | .publishing _ | .done => False

/-- A task will move the cryptors of the room, or its own translator will see that one does. -/
def Covered (s : System) (room : ℕ) (r : Room) : Prop :=
  (∃ task ∈ s.tasks, Corrects room task) ∨ r.owner = ownHandle ∧ 0 < r.reconnected

/-- Only the index set last is on its way to the cryptors, and where one of ours is not on
it, it is on its way. -/
structure Inv (s : System) : Prop where
  lastSet : s.lastSet = s.own.localKeyIndex
  others : ∀ handle, handle ≠ ownHandle → (s.handles handle).localKeyIndex = none
  current : ∀ task ∈ s.tasks, ∀ keyIndex, task.index = some keyIndex →
    s.own.localKeyIndex = some keyIndex
  applying : ∀ handle keyIndex, .applying handle keyIndex ∈ s.tasks → handle = ownHandle
  covered : ∀ keyIndex, s.own.localKeyIndex = some keyIndex → ∀ room, s.own.session = some room →
    ∀ r, s.rooms[room]? = some r → (∀ c ∈ r.cryptors, c = keyIndex) ∨ Covered s room r

section Steps
variable {s : System} {i : ℕ}

theorem handles_setHandle (s : System) (handle : ℕ) (h : Handle)
    (same : h.localKeyIndex = (s.handles handle).localKeyIndex) (other : ℕ) :
    ((s.setHandle handle h).handles other).localKeyIndex =
      (s.handles other).localKeyIndex := by
  simp only [System.setHandle, Function.update_apply]
  split_ifs with eq
  · rw [eq]
    exact same
  · rfl

/-- A change of the tasks that keeps those that correct, with the indices as they are. -/
theorem Inv.withTasks {tasks : List Task} (inv : Inv s)
    (kept : ∀ room, ∀ task ∈ s.tasks, Corrects room task → task ∈ tasks)
    (current : ∀ task ∈ tasks, task ∈ s.tasks ∨ task.index = none) :
    Inv { s with tasks := tasks } := by
  constructor
  · exact inv.lastSet
  · exact inv.others
  · intro task member keyIndex index
    rcases current task member with old | none
    · exact inv.current task old keyIndex index
    · cases none.symm.trans index
  · intro handle keyIndex member
    rcases current _ member with old | none
    · exact inv.applying handle keyIndex old
    · cases none
  · intro keyIndex set room session r present
    rcases inv.covered keyIndex set room session r present with there | ⟨task, member, corrects⟩ |
      event
    · exact Or.inl there
    · exact Or.inr (Or.inl ⟨task, kept room task member corrects, corrects⟩)
    · exact Or.inr (Or.inr event)

theorem Inv.setTask_idle {was task : Task} (inv : Inv s) (present : s.tasks[i]? = some was)
    (idle : ∀ room, ¬ Corrects room was) (index : task.index = none) :
    Inv (s.setTask i task) := by
  apply inv.withTasks
  · intro room other member corrects
    obtain ⟨j, at_⟩ := List.mem_iff_getElem?.mp member
    by_cases same : j = i
    · obtain rfl := same
      obtain rfl : was = other := Option.some.inj (present.symm.trans at_)
      exact absurd corrects (idle room)
    · exact ListPlaces.mem_of_ne same at_
  · intro other member
    rcases ListPlaces.of_mem_set member with rfl | ⟨j, -, old⟩
    · exact Or.inr index
    · exact Or.inl (List.mem_of_getElem? old)

theorem Inv.spawn_idle {task : Task} (inv : Inv s) (index : task.index = none) :
    Inv (s.spawn task) := by
  apply inv.withTasks
  · intro room other member _
    exact List.mem_append_left _ member
  · intro other member
    rcases List.mem_append.mp member with old | new
    · exact Or.inl old
    · exact Or.inr (List.mem_singleton.mp new ▸ index)

/-- Whatever became of the rooms, a task on our own handle is under way. -/
theorem Inv.correcting {t : System} {task : Task} (inv : Inv s)
    (lastSet : t.lastSet = t.own.localKeyIndex)
    (handles : ∀ handle, (t.handles handle).localKeyIndex = (s.handles handle).localKeyIndex)
    (tasks : ∀ other ∈ t.tasks, other = task ∨ other ∈ s.tasks) (present : task ∈ t.tasks)
    (corrects : ∀ room, t.own.session = some room → Corrects room task)
    (index : ∀ keyIndex, task.index = some keyIndex → s.own.localKeyIndex = some keyIndex)
    (applying : ∀ handle keyIndex, task = .applying handle keyIndex → handle = ownHandle) :
    Inv t := by
  have same : t.own.localKeyIndex = s.own.localKeyIndex := handles ownHandle
  constructor
  · exact lastSet
  · intro handle other
    rw [handles handle]
    exact inv.others handle other
  · intro other member keyIndex eq
    rw [same]
    rcases tasks other member with rfl | old
    · exact index keyIndex eq
    · exact inv.current other old keyIndex eq
  · intro handle keyIndex member
    rcases tasks _ member with eq | old
    · exact applying handle keyIndex eq.symm
    · exact inv.applying handle keyIndex old
  · intro keyIndex _ room session r _
    exact Or.inr (Or.inl ⟨task, present, corrects room session⟩)

theorem mem_set_or {task other : Task} (member : other ∈ s.tasks.set i task) :
    other = task ∨ other ∈ s.tasks := by
  rcases ListPlaces.of_mem_set member with eq | ⟨j, -, old⟩
  · exact Or.inl eq
  · exact Or.inr (List.mem_of_getElem? old)

theorem mem_append_or {task other : Task} (member : other ∈ s.tasks ++ [task]) :
    other = task ∨ other ∈ s.tasks := by
  rcases List.mem_append.mp member with old | new
  · exact Or.inr old
  · exact Or.inl (List.mem_singleton.mp new)

theorem mem_append_self (task : Task) : task ∈ s.tasks ++ [task] :=
  List.mem_append_right _ (List.mem_singleton.mpr rfl)

theorem Inv.setLocalKeyIndex {keyIndex : UInt8} (inv : Inv s)
    (turn : InTurn s (.setLocalKeyIndex keyIndex)) :
    Inv { (s.setHandle ownHandle { s.own with localKeyIndex := some keyIndex }).spawn
      (.applying ownHandle keyIndex) with lastSet := some keyIndex } := by
  have own : (s.setHandle ownHandle { s.own with localKeyIndex := some keyIndex }).own =
      { s.own with localKeyIndex := some keyIndex } := by
    simp only [System.own, System.setHandle, Function.update_self]
  constructor
  · exact congrArg Handle.localKeyIndex own.symm
  · intro handle other
    have same := inv.others handle other
    simp only [System.spawn, System.setHandle, Function.update_of_ne other]
    exact same
  · intro task member k index
    refine (congrArg Handle.localKeyIndex own).trans ?_
    rcases mem_append_or member with rfl | old
    · exact index
    · rw [turn task old k index]
  · intro handle k member
    rcases mem_append_or member with eq | old
    · cases eq
      rfl
    · exact inv.applying handle k old
  · intro k _ room _ r _
    exact Or.inr (Or.inl ⟨_, mem_append_self _, rfl⟩)

/-- The new room has none of our cryptors, and our tracks are published on it if it is
our own handle's. -/
theorem Inv.install {handle started : ℕ} (inv : Inv s)
    (present : s.tasks[i]? = some (.connecting handle started)) :
    Inv (s.install i handle started) := by
  have idle : ∀ room, ¬ Corrects room (.connecting handle started) := fun _ no => no
  have same := handles_setHandle s handle
    { s.handles handle with session := some s.rooms.length } rfl
  unfold System.install
  split_ifs with current
  · by_cases ours : handle = ownHandle
    · apply inv.correcting
      · exact inv.lastSet.trans (same ownHandle).symm
      · exact same
      · intro other member
        exact mem_set_or member
      · exact ListPlaces.set_mem present
      · intro room _
        exact ours
      · intro keyIndex index
        cases index
      · intro handle keyIndex eq
        cases eq
    · have moved : Inv (s.setTask i (.republishing handle s.rooms.length)) :=
        inv.setTask_idle present idle rfl
      have own : ∀ h, (s.setHandle handle h).own = s.own := by
        intro h
        exact Function.update_of_ne (Ne.symm ours) _ _
      constructor
      · exact inv.lastSet.trans (congrArg Handle.localKeyIndex (own _).symm)
      · intro other ne
        exact (same other).trans (inv.others other ne)
      · intro task member keyIndex index
        exact (congrArg Handle.localKeyIndex (own _)).trans
          (moved.current task member keyIndex index)
      · exact moved.applying
      · intro keyIndex set room session r there
        have set' := (congrArg Handle.localKeyIndex (own _)).symm.trans set
        have session' := (congrArg Handle.session (own _)).symm.trans session
        rcases ListPlaces.of_append there with old | ⟨-, rfl⟩
        · exact moved.covered keyIndex set' room session' r old
        · left
          intro c cryptor
          cases cryptor
  · exact inv.setTask_idle present idle rfl

/-- A new cryptor comes with a task that corrects it. -/
theorem Inv.addCryptor {room : ℕ} {task : Task} {tasks : List Task} (inv : Inv s)
    (others : ∀ other ∈ tasks, other = task ∨ other ∈ s.tasks) (present : task ∈ tasks)
    (corrects : ∀ room, Corrects room task) (index : task.index = none) :
    Inv { s.addCryptor room with tasks := tasks } := by
  apply inv.correcting
  · exact inv.lastSet
  · intro handle
    rfl
  · exact others
  · exact present
  · intro room _
    exact corrects room
  · intro keyIndex eq
    cases index.symm.trans eq
  · rintro handle keyIndex rfl
    cases index

theorem Inv.published {t : System} (inv : Inv s) (h : step s (.published i) = some t) :
    Inv t := by
  simp only [step] at h
  split at h
  · rename_i room present
    cases h
    apply inv.addCryptor
    · intro other member
      exact mem_set_or member
    · exact ListPlaces.set_mem present
    · intro _
      rfl
    · rfl
  · rename_i handle room present
    simp only [Option.ite_none_right_eq_some, Option.some.injEq] at h
    obtain ⟨ours, rfl⟩ := h
    have kept : ∀ other ∈ s.tasks, other = .republishing handle room ∨ other ∈ s.tasks := by
      intro other member
      exact Or.inr member
    apply inv.addCryptor kept
    · exact List.mem_of_getElem? present
    · intro _
      exact ours
    · rfl
  · cases h

/-- A task of our own handle goes on to its next step. -/
theorem Inv.next {task : Task} (inv : Inv s)
    (there : ∃ was, s.tasks[i]? = some was)
    (corrects : ∀ room, s.own.session = some room → Corrects room task)
    (index : ∀ keyIndex, task.index = some keyIndex → s.own.localKeyIndex = some keyIndex)
    (applying : ∀ handle keyIndex, task = .applying handle keyIndex → handle = ownHandle) :
    Inv (s.setTask i task) := by
  obtain ⟨was, present⟩ := there
  apply inv.correcting
  · exact inv.lastSet
  · intro handle
    rfl
  · intro other member
    exact mem_set_or member
  · exact ListPlaces.set_mem present
  · exact corrects
  · exact index
  · exact applying

theorem Inv.republished {t : System} (inv : Inv s) (h : step s (.republished i) = some t) :
    Inv t := by
  simp only [step] at h
  split at h
  · rename_i handle room present
    cases h
    by_cases ours : handle = ownHandle
    · apply inv.next ⟨_, present⟩
      · intro _ _
        exact ours
      · intro keyIndex index
        cases index
      · intro handle keyIndex eq
        cases eq
    · apply inv.setTask_idle present
      · intro room corrects
        exact ours corrects
      · rfl
  · cases h

theorem Inv.reassert {t : System} (inv : Inv s)
    (h : step s (.reassertLocalKeyIndex i) = some t) : Inv t := by
  simp only [step] at h
  split at h
  · rename_i handle present
    by_cases ours : handle = ownHandle
    · subst ours
      split at h
      · rename_i unset
        cases h
        -- no index was set, so there is nothing to keep
        constructor
        · exact inv.lastSet
        · exact inv.others
        · intro task member keyIndex index
          rcases mem_set_or member with rfl | old
          · cases index
          · exact inv.current task old keyIndex index
        · intro handle keyIndex member
          rcases mem_set_or member with eq | old
          · cases eq
          · exact inv.applying handle keyIndex old
        · intro keyIndex set
          cases unset.symm.trans set
      · rename_i keyIndex set
        cases h
        apply inv.next ⟨_, present⟩
        · intro _ _
          rfl
        · intro k index
          cases index
          exact set
        · intro handle k eq
          cases eq
          rfl
    · rw [inv.others handle ours] at h
      cases h
      apply inv.setTask_idle present
      · intro room corrects
        exact ours corrects
      · rfl
  · cases h

theorem Inv.currentSession {t : System} (inv : Inv s) (h : step s (.currentSession i) = some t) :
    Inv t := by
  simp only [step] at h
  split at h
  · rename_i handle keyIndex present
    have member := List.mem_of_getElem? present
    obtain rfl := inv.applying handle keyIndex member
    have set := inv.current _ member keyIndex rfl
    split at h
    · rename_i unconnected
      cases h
      apply inv.next ⟨_, present⟩
      · intro room session
        cases unconnected.symm.trans session
      · intro k index
        cases index
      · intro handle k eq
        cases eq
    · rename_i room session
      cases h
      apply inv.next ⟨_, present⟩
      · intro r session'
        exact Option.some.inj (session.symm.trans session')
      · intro k index
        cases index
        exact set
      · intro handle k eq
        cases eq
  · cases h

/-- The cryptors of a room are moved, to the index set last. -/
theorem Inv.moveCryptors {room : ℕ} {keyIndex : UInt8} (inv : Inv s)
    (present : s.tasks[i]? = some (.moving room keyIndex)) :
    Inv { s.setTask i .done with
      rooms := s.rooms.modify room fun r =>
        { r with cryptors := r.cryptors.map fun _ => keyIndex } } := by
  have set := inv.current _ (List.mem_of_getElem? present) keyIndex rfl
  constructor
  · exact inv.lastSet
  · exact inv.others
  · intro task member k index
    rcases mem_set_or member with rfl | old
    · cases index
    · exact inv.current task old k index
  · intro handle k member
    rcases mem_set_or member with eq | old
    · cases eq
    · exact inv.applying handle k old
  · intro k set' room' session r there
    rw [List.getElem?_modify] at there
    obtain ⟨r', old, rfl⟩ := Option.map_eq_some_iff.mp there
    by_cases same : room = room'
    · left
      simp only [same, if_true]
      intro c cryptor
      obtain ⟨-, -, rfl⟩ := List.mem_map.mp cryptor
      exact Option.some.inj (set.symm.trans set')
    · simp only [same, if_false]
      rcases inv.covered k set' room' session r' old with moved | ⟨task, member, corrects⟩ | event
      · exact Or.inl moved
      · refine Or.inr (Or.inl ⟨task, ?_, corrects⟩)
        obtain ⟨j, at_⟩ := List.mem_iff_getElem?.mp member
        apply ListPlaces.mem_of_ne _ at_
        rintro rfl
        obtain rfl : _ = task := Option.some.inj (present.symm.trans at_)
        exact same corrects
      · exact Or.inr (Or.inr event)

theorem Inv.takeOver {room : ℕ} (inv : Inv s) :
    Inv { (s.setHandle ownHandle { s.own with
        session := some room, installs := s.own.installs + 1 }).spawn
      (.republishing ownHandle room) with handover := none } := by
  apply inv.correcting
  · exact inv.lastSet.trans (handles_setHandle s ownHandle _ rfl ownHandle).symm
  · exact handles_setHandle s ownHandle _ rfl
  · intro other member
    exact mem_append_or member
  · exact mem_append_self _
  · intro _ _
    rfl
  · intro keyIndex index
    cases index
  · intro handle keyIndex eq
    cases eq

theorem Inv.restarted {room : ℕ} {renewed : List Bool} {r : Room} (inv : Inv s)
    (turn : InTurn s (.restarted room renewed)) (present : s.rooms[room]? = some r) :
    Inv { s with
      rooms := s.rooms.set room { r with
        cryptors := renew r.cryptors renewed, reconnected := r.reconnected + 1 } } := by
  constructor
  · exact inv.lastSet
  · exact inv.others
  · exact inv.current
  · exact inv.applying
  · intro keyIndex set room' session r' there
    rcases ListPlaces.of_set there with ⟨rfl, rfl⟩ | ⟨-, old⟩
    · rcases turn r present with ours | unset | kept
      · exact Or.inr (Or.inr ⟨ours, Nat.succ_pos _⟩)
      · cases unset.symm.trans set
      · rcases inv.covered keyIndex set room' session r present with moved | task | event
        · left
          rw [kept]
          exact moved
        · exact Or.inr (Or.inl task)
        · exact Or.inr (Or.inr ⟨event.1, Nat.succ_pos _⟩)
    · exact inv.covered keyIndex set room' session r' old

/-- The translator reasserts the index on the handle it belongs to. -/
theorem Inv.translate {room owner reconnected : ℕ} {cryptors : List UInt8} (inv : Inv s)
    (present : s.rooms[room]? = some ⟨owner, cryptors, reconnected + 1⟩) :
    Inv ({ s with rooms := s.rooms.set room ⟨owner, cryptors, reconnected⟩ }.spawn
      (.reasserting owner)) := by
  constructor
  · exact inv.lastSet
  · exact inv.others
  · intro task member keyIndex index
    rcases mem_append_or member with rfl | old
    · cases index
    · exact inv.current task old keyIndex index
  · intro handle keyIndex member
    rcases mem_append_or member with eq | old
    · cases eq
    · exact inv.applying handle keyIndex old
  · intro keyIndex set room' session r there
    rcases ListPlaces.of_set there with ⟨rfl, rfl⟩ | ⟨-, old⟩
    · rcases inv.covered keyIndex set room' session _ present with moved | ⟨task, old, corrects⟩ |
        event
      · exact Or.inl moved
      · exact Or.inr (Or.inl ⟨task, List.mem_append_left _ old, corrects⟩)
      · exact Or.inr (Or.inl ⟨_, mem_append_self _, event.1⟩)
    · rcases inv.covered keyIndex set room' session r old with moved | ⟨task, old, corrects⟩ |
        event
      · exact Or.inl moved
      · exact Or.inr (Or.inl ⟨task, List.mem_append_left _ old, corrects⟩)
      · exact Or.inr (Or.inr event)

theorem Inv.step {a : Action} {t : System} (inv : Inv s) (turn : InTurn s a)
    (h : LocalKeyIndices.step s a = some t) : Inv t := by
  cases a with
  | setLocalKeyIndex keyIndex =>
      cases h
      exact inv.setLocalKeyIndex turn
  | publish =>
      simp only [LocalKeyIndices.step] at h
      split at h
      · cases h
        exact inv
      · cases h
        exact inv.spawn_idle rfl
  | reconnect handle =>
      cases h
      exact inv.spawn_idle rfl
  | connected i ok =>
      simp only [LocalKeyIndices.step] at h
      split at h
      · rename_i handle started present
        cases h
        split_ifs
        · exact inv.install present
        · exact inv.setTask_idle present (fun _ no => no) rfl
      · cases h
  | published i => exact inv.published h
  | publishFailed i =>
      simp only [LocalKeyIndices.step] at h
      split at h
      · rename_i room present
        cases h
        exact inv.setTask_idle present (fun _ no => no) rfl
      · cases h
  | republished i => exact inv.republished h
  | reassertLocalKeyIndex i => exact inv.reassert h
  | currentSession i => exact inv.currentSession h
  | moveCryptors i =>
      simp only [LocalKeyIndices.step] at h
      split at h
      · rename_i room keyIndex present
        cases h
        exact inv.moveCryptors present
      · cases h
  | handOver handle =>
      simp only [LocalKeyIndices.step] at h
      split at h
      · cases h
      · cases h
        exact ⟨inv.lastSet, inv.others, inv.current, inv.applying, inv.covered⟩
  | takeOver =>
      simp only [LocalKeyIndices.step] at h
      split at h
      · cases h
      · cases h
        exact inv.takeOver
  | restarted room renewed =>
      simp only [LocalKeyIndices.step] at h
      split at h
      · cases h
      · rename_i r present
        cases h
        exact inv.restarted turn present
  | translate room =>
      simp only [LocalKeyIndices.step] at h
      split at h
      · rename_i owner cryptors reconnected present
        cases h
        exact inv.translate present
      · cases h

end Steps

theorem start_inv : Inv start := by
  constructor
  · rfl
  · intro handle _
    rfl
  · intro task member
    cases member
  · intro handle keyIndex member
    cases member
  · intro keyIndex set
    cases set

/-- The key index survives every room change in a run in which it is set when no other is
still to be applied, and no room taken over renews our cryptors afterwards. -/
theorem index_survives (as : List Action) {t : System} (turns : Admissible step InTurn start as)
    (h : run step start as = some t) : IndexKept t := by
  have inv : Inv t := by
    apply run_invariant (I := Inv) _ start_inv turns h
    intro s a u inv turn taken
    exact inv.step turn taken
  intro settled keyIndex set room session r present
  have set' : t.own.localKeyIndex = some keyIndex := inv.lastSet.symm.trans set
  rcases inv.covered keyIndex set' room session r present with moved | ⟨task, member, corrects⟩ |
    ⟨-, event⟩
  · exact moved
  · rw [settled.1 task member] at corrects
    exact absurd corrects id
  · rw [settled.2.2 r (List.mem_of_getElem? present)] at event
    exact absurd event (Nat.lt_irrefl 0)

section Runs

/-- Another handle connects, ours takes its room over and publishes there. -/
def takenOver : List Action :=
  [.reconnect 1, .connected 0 true, .republished 0, .reassertLocalKeyIndex 0, .handOver 1,
    .takeOver, .published 1, .republished 1, .reassertLocalKeyIndex 1]

set_option maxRecDepth 2000 in
/-- The rotation is followed by a reconnect of our own, with a restart of its room. -/
theorem takenOver_keeps_index : ∃ t, run step start (takenOver ++
    [.setLocalKeyIndex 1, .currentSession 2, .moveCryptors 2, .reconnect 0, .connected 3 true,
      .published 3, .republished 3, .reassertLocalKeyIndex 3, .currentSession 3, .moveCryptors 3,
      .restarted 1 [true], .translate 1, .reassertLocalKeyIndex 4, .currentSession 4,
      .moveCryptors 4]) = some t ∧ IndexKept t := by
  refine ⟨_, rfl, ?_⟩
  exact index_survives (takenOver ++
    [.setLocalKeyIndex 1, .currentSession 2, .moveCryptors 2, .reconnect 0, .connected 3 true,
      .published 3, .republished 3, .reassertLocalKeyIndex 3, .currentSession 3, .moveCryptors 3,
      .restarted 1 [true], .translate 1, .reassertLocalKeyIndex 4, .currentSession 4,
      .moveCryptors 4]) (by decide) rfl

/-- After the rotation the room taken over is restarted, which its translator reasserts
on the handle it was taken from. -/
theorem not_always_index_kept : ¬ ∀ (as : List Action) (t : System),
    run step start as = some t → IndexKept t := by
  intro always
  have broken := always (takenOver ++ [.setLocalKeyIndex 1, .currentSession 2, .moveCryptors 2,
    .restarted 0 [true], .translate 0, .reassertLocalKeyIndex 3]) _ rfl
  revert broken
  decide

end Runs

end MatrixRtc.LocalKeyIndices

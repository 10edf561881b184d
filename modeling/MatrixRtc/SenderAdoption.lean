import MatrixRtc.ListPlaces
import MatrixRtc.MediaKeyHandlers

/-!
# Adopting the key in use

`apply` with each acquisition of a lock as a step of its own, beside the end of
`attach_media`: the sender's hook is installed, then the recorded key is read and its
index adopted. The hook runs while the lock of the local sender is held. Whether the
ring refused a recorded key is no state of the program.
-/
namespace MatrixRtc.SenderAdoption
open StepRuns MediaKeyHandlers

/-- Where an `apply` stands. -/
inductive Point where
  | importing
  | checking (rejected : Bool)
  | switching
  | recording (rejected : Bool)
  | done
deriving DecidableEq, Repr

structure Apply where
  key : ParticipantKey
  point : Point
deriving DecidableEq, Repr

structure Recorded where
  key : ParticipantKey
  refused : Bool
deriving DecidableEq, Repr

/-- Where the end of `attach_media` stands. -/
inductive Attach where
  | waiting
  | installed
  | adopting (own : Recorded)
  | finished
deriving DecidableEq, Repr

/-- A call of `set_local_key_index`. -/
structure IndexCall where
  keyIndex : UInt8
  refused : Bool
deriving DecidableEq, Repr

structure System where
  ownIdentity : String
  /-- the size of the ring, if there is one -/
  ringSize : Option ℕ
  keys : String → Option Recorded
  applies : List Apply
  /-- the lock of the local sender is held by an `apply` that calls the hook -/
  senderLocked : Bool
  attach : Attach
  localKeyIndex : Option UInt8
  /-- the index of the last own key the ring accepted -/
  lastAccepted : Option UInt8
  calls : List IndexCall

inductive Action where
  | apply (key : ParticipantKey)
  | imported (i : ℕ) (answer : Bool)
  | checkSender (i : ℕ)
  | switch (i : ℕ)
  | record (i : ℕ)
  | setLocalSender
  | keyFor
  | adopt

namespace System

def IsOwn (s : System) (key : ParticipantKey) : Prop :=
  key.rtcBackendIdentity = s.ownIdentity

instance (s : System) (key : ParticipantKey) : Decidable (s.IsOwn key) :=
  inferInstanceAs (Decidable (_ = _))

/-- `set_key` answers for a key that reaches the ring. -/
def refuses (s : System) (key : ParticipantKey) (answer : Bool) : Bool :=
  rejects (s.ringSize.map fun size => ⟨size, fun _ _ _ => answer⟩) key

def moveTo (s : System) (i : ℕ) (a : Apply) (point : Point) : System :=
  { s with applies := s.applies.set i { a with point := point } }

def setLocalKeyIndex (s : System) (keyIndex : UInt8) (refused : Bool) : System :=
  { s with localKeyIndex := some keyIndex, calls := s.calls ++ [⟨keyIndex, refused⟩] }

/-- The hook is installed from `set_local_sender` on. -/
def hooked (s : System) : Bool :=
  match s.attach with
  | .waiting => false
  | .installed | .adopting _ | .finished => true

/-- The recorded key was read and its index is not adopted yet. -/
def adopting (s : System) : Bool :=
  match s.attach with
  | .adopting _ => true
  | .waiting | .installed | .finished => false

end System

def step (s : System) : Action → Option System
  | .apply key => some { s with applies := s.applies ++ [⟨key, .importing⟩] }
  | .imported i answer =>
      match s.applies[i]? with
      | some ⟨key, .importing⟩ =>
          let refused := s.refuses key answer
          some { s.moveTo i ⟨key, .importing⟩ (.checking refused) with
            lastAccepted :=
              if s.IsOwn key ∧ refused = false then some key.keyIndex else s.lastAccepted }
      | _ => none
  | .checkSender i =>
      match s.applies[i]? with
      | some ⟨key, .checking refused⟩ =>
          if s.senderLocked then none
          else if refused = false ∧ s.hooked = true ∧ s.IsOwn key then
            some { s.moveTo i ⟨key, .checking refused⟩ .switching with senderLocked := true }
          else some (s.moveTo i ⟨key, .checking refused⟩ (.recording refused))
      | _ => none
  | .switch i =>
      match s.applies[i]? with
      | some ⟨key, .switching⟩ =>
          some { (s.moveTo i ⟨key, .switching⟩ (.recording false)).setLocalKeyIndex key.keyIndex
            false with senderLocked := false }
      | _ => none
  | .record i =>
      match s.applies[i]? with
      | some ⟨key, .recording refused⟩ =>
          some { s.moveTo i ⟨key, .recording refused⟩ .done with
            keys := Function.update s.keys key.rtcBackendIdentity (some ⟨key, refused⟩) }
      | _ => none
  | .setLocalSender =>
      match s.attach with
      | .waiting => if s.senderLocked then none else some { s with attach := .installed }
      | .installed | .adopting _ | .finished => none
  | .keyFor =>
      match s.attach with
      | .installed =>
          match s.keys s.ownIdentity with
          | none => some { s with attach := .finished }
          | some own => some { s with attach := .adopting own }
      | .waiting | .adopting _ | .finished => none
  | .adopt =>
      match s.attach with
      | .adopting own =>
          some { s.setLocalKeyIndex own.key.keyIndex own.refused with attach := .finished }
      | .waiting | .installed | .finished => none

/-- A connection just prepared, with nothing recorded. -/
def start (ownIdentity : String) (ringSize : Option ℕ) : System where
  ownIdentity := ownIdentity
  ringSize := ringSize
  keys := fun _ => none
  applies := []
  senderLocked := false
  attach := .waiting
  localKeyIndex := none
  lastAccepted := none
  calls := []

/-- The handler an `apply` works on, with what its ring is to answer. -/
def handler (s : System) (answer : Bool) : MediaKeyHandler where
  ring := s.ringSize.map fun size => ⟨size, fun _ _ _ => answer⟩
  keys := fun identity => (s.keys identity).map Recorded.key
  localSender := if s.hooked then some s.ownIdentity else none

section Alone
variable {s : System} {i : ℕ} {key : ParticipantKey} {answer refused : Bool}

theorem record_alone (answer : Bool)
    (present : s.applies[i]? = some ⟨key, .recording refused⟩) :
    ∃ t, step s (.record i) = some t ∧ t.localKeyIndex = s.localKeyIndex ∧
      handler t answer = ((handler s answer).apply key).1 := by
  refine ⟨{ s.moveTo i ⟨key, .recording refused⟩ .done with
    keys := Function.update s.keys key.rtcBackendIdentity (some ⟨key, refused⟩) },
    by simp only [step, present], rfl, ?_⟩
  have keys : (fun identity => (Function.update s.keys key.rtcBackendIdentity
      (some ⟨key, refused⟩) identity).map Recorded.key) =
        Function.update (handler s answer).keys key.rtcBackendIdentity (some key) := by
    funext identity
    simp only [handler, Function.update_apply]
    split_ifs <;> rfl
  exact congrArg (fun keys => { handler s answer with keys := keys }) keys

theorem hooked_apply : ((handler s answer).apply key).2.hooked =
    if s.refuses key answer = false ∧ s.hooked = true ∧ s.IsOwn key then some key.keyIndex
    else none := by
  have rejected : rejects (handler s answer).ring key = s.refuses key answer := rfl
  simp only [MediaKeyHandler.apply, rejected]
  cases s.refuses key answer with
  | true => simp
  | false =>
      cases hooked : s.hooked with
      | false => simp [handler, hooked]
      | true => simp [handler, hooked, System.IsOwn, eq_comm (a := s.ownIdentity)]

/-- With no step of others in between an `apply` is `MediaKeyHandler::apply`. -/
theorem apply_alone (s : System) (key : ParticipantKey) (answer : Bool)
    (free : s.senderLocked = false) : ∃ as t, run step s (.apply key :: as) = some t ∧
      handler t answer = ((handler s answer).apply key).1 ∧
      t.localKeyIndex = ((handler s answer).apply key).2.hooked.or s.localKeyIndex := by
  have importing : (s.applies ++ [⟨key, .importing⟩])[s.applies.length]? =
      some (Apply.mk key .importing) := by simp
  generalize s.applies.length = i at importing
  let imported : System :=
    { System.moveTo { s with applies := s.applies ++ [⟨key, .importing⟩] } i ⟨key, .importing⟩
        (.checking (s.refuses key answer)) with
      lastAccepted := if s.IsOwn key ∧ s.refuses key answer = false then some key.keyIndex
        else s.lastAccepted }
  have first : step { s with applies := s.applies ++ [⟨key, .importing⟩] } (.imported i answer) =
      some imported := by
    simp only [step, importing]
    rfl
  have checking : imported.applies[i]? = some ⟨key, .checking (s.refuses key answer)⟩ :=
    ListPlaces.set_at importing
  rw [hooked_apply]
  by_cases moves : s.refuses key answer = false ∧ s.hooked = true ∧ s.IsOwn key
  · rw [moves.1] at checking
    let looked : System := { imported.moveTo i ⟨key, .checking false⟩ .switching with
      senderLocked := true }
    have second : step imported (.checkSender i) = some looked := by
      simp only [step, checking]
      rw [if_neg (by simp [imported, System.moveTo, free]), if_pos ⟨trivial, moves.2⟩]
    have switching : looked.applies[i]? = some ⟨key, .switching⟩ := ListPlaces.set_at checking
    let switched : System := { (looked.moveTo i ⟨key, .switching⟩
      (.recording false)).setLocalKeyIndex key.keyIndex false with senderLocked := false }
    have third : step looked (.switch i) = some switched := by
      simp only [step, switching]
      rfl
    have recording : switched.applies[i]? = some ⟨key, .recording false⟩ :=
      ListPlaces.set_at switching
    obtain ⟨t, recorded, index, same⟩ := record_alone answer recording
    refine ⟨[.imported i answer, .checkSender i, .switch i, .record i], t, ?_, same, ?_⟩
    · exact run_cons.mpr ⟨_, rfl, run_cons.mpr ⟨_, first, run_cons.mpr ⟨_, second,
        run_cons.mpr ⟨_, third, run_cons.mpr ⟨_, recorded, rfl⟩⟩⟩⟩⟩
    · rw [if_pos moves]
      exact index
  · let looked := imported.moveTo i ⟨key, .checking (s.refuses key answer)⟩
      (.recording (s.refuses key answer))
    have stays : ¬ (s.refuses key answer = false ∧ imported.hooked = true ∧
        imported.IsOwn key) := moves
    have second : step imported (.checkSender i) = some looked := by
      simp only [step, checking]
      rw [if_neg (by simp [imported, System.moveTo, free]), if_neg stays]
    have recording : looked.applies[i]? = some ⟨key, .recording (s.refuses key answer)⟩ :=
      ListPlaces.set_at checking
    obtain ⟨t, recorded, index, same⟩ := record_alone answer recording
    refine ⟨[.imported i answer, .checkSender i, .record i], t, ?_, same, ?_⟩
    · exact run_cons.mpr ⟨_, rfl, run_cons.mpr ⟨_, first, run_cons.mpr ⟨_, second,
        run_cons.mpr ⟨_, recorded, rfl⟩⟩⟩⟩
    · rw [if_neg moves]
      exact index

end Alone

/-- Every `apply` and the attach have finished. -/
def Finished (s : System) : Prop :=
  (∀ a ∈ s.applies, a.point = .done) ∧ s.attach = .finished

/-- The sender was never moved to an index whose key was refused, and once all have
finished it is on the last own key accepted. -/
structure Adopted (s : System) : Prop where
  calls : ∀ c ∈ s.calls, c.refused = false
  adopted : Finished s → s.localKeyIndex = s.lastAccepted

/-- An own key was accepted and is not recorded yet. -/
def Underway (s : System) (a : Apply) : Prop :=
  s.IsOwn a.key ∧ (a.point = .checking false ∨ a.point = .switching ∨ a.point = .recording false)

instance (s : System) : Decidable (Finished s) := inferInstanceAs (Decidable (_ ∧ _))

/-- Own keys are accepted one after the other. None that was accepted is past its look for
the hook when the record is read, or looks for it until that record is adopted; and the
record read is of a key that was not refused. -/
def InTurn (s : System) : Action → Prop
  | .imported i answer => ∀ a ∈ s.applies[i]?, s.IsOwn a.key → s.refuses a.key answer = false →
      ∀ b ∈ s.applies, ¬ Underway s b
  | .checkSender i => ∀ a ∈ s.applies[i]?, Underway s a → s.adopting = false
  | .keyFor => (∀ a ∈ s.applies, Underway s a → a.point = .checking false) ∧
      ∀ own ∈ s.keys s.ownIdentity, own.refused = false
  | .apply _ | .switch _ | .record _ | .setLocalSender | .adopt => True

instance (s : System) : DecidablePred (Underway s) := fun _ =>
  inferInstanceAs (Decidable (_ ∧ (_ ∨ _ ∨ _)))

instance (s : System) : DecidablePred (InTurn s)
  | .imported i answer => inferInstanceAs (Decidable (∀ a ∈ s.applies[i]?, s.IsOwn a.key →
      s.refuses a.key answer = false → ∀ b ∈ s.applies, ¬ Underway s b))
  | .checkSender i => inferInstanceAs (Decidable (∀ a ∈ s.applies[i]?, Underway s a → _))
  | .keyFor => inferInstanceAs (Decidable ((∀ a ∈ s.applies, _ → _) ∧
      ∀ own ∈ s.keys s.ownIdentity, own.refused = false))
  | .apply _ | .switch _ | .record _ | .setLocalSender | .adopt => isTrue trivial

/-- No own key that was accepted waits to be recorded. -/
def Quiet (s : System) : Prop :=
  ∀ a ∈ s.applies, ¬ Underway s a

/-- What holds between the keys accepted, the record and the sender. -/
structure Inv (s : System) : Prop where
  alone : ∀ (i j : ℕ) (a b : Apply), s.applies[i]? = some a → s.applies[j]? = some b →
    Underway s a → Underway s b → i = j
  latest : ∀ a ∈ s.applies, Underway s a → s.lastAccepted = some a.key.keyIndex
  unrecorded : Quiet s → s.keys s.ownIdentity = none → s.lastAccepted = none
  recorded : Quiet s → ∀ own, s.keys s.ownIdentity = some own → own.refused = false →
    s.lastAccepted = some own.key.keyIndex
  switching : ∀ a ∈ s.applies, a.point = .switching → s.IsOwn a.key ∧ s.hooked = true
  calls : ∀ c ∈ s.calls, c.refused = false
  waiting : s.attach = .waiting → s.localKeyIndex = none
  installed : s.attach = .installed → s.keys s.ownIdentity = none →
    (∀ a ∈ s.applies, Underway s a → a.point = .checking false) → s.localKeyIndex = none
  adopting : ∀ own, s.attach = .adopting own → own.refused = false ∧
    (∀ a ∈ s.applies, Underway s a → a.point = .checking false) ∧
      (Quiet s → s.lastAccepted = some own.key.keyIndex)
  finished : s.attach = .finished →
    (∀ a ∈ s.applies, Underway s a → a.point = .recording false) →
      s.localKeyIndex = s.lastAccepted

section Steps
variable {s : System} {i : ℕ} {a b : Apply} {point : Point}

/-- A change of the entries that neither adds nor takes away one that is underway. -/
theorem Inv.calm {applies : List Apply} (inv : Inv s)
    (old : ∀ (j : ℕ) (b : Apply), applies[j]? = some b → Underway s b → s.applies[j]? = some b)
    (kept : ∀ b ∈ s.applies, Underway s b → b ∈ applies)
    (switching : ∀ b ∈ applies, b.point = .switching → b ∈ s.applies) :
    Inv { s with applies := applies } := by
  have older : ∀ b ∈ applies, Underway s b → b ∈ s.applies := by
    intro b member underway
    obtain ⟨j, at_⟩ := List.mem_iff_getElem?.mp member
    exact List.mem_of_getElem? (old j b at_ underway)
  have quiet : Quiet { s with applies := applies } → Quiet s := by
    intro quiet b member underway
    exact quiet b (kept b member underway) underway
  constructor
  · intro j k b c hj hk ub uc
    exact inv.alone j k b c (old j b hj ub) (old k c hk uc) ub uc
  · intro b member underway
    exact inv.latest b (older b member underway) underway
  · intro calm
    exact inv.unrecorded (quiet calm)
  · intro calm
    exact inv.recorded (quiet calm)
  · intro b member point
    exact inv.switching b (switching b member point) point
  · exact inv.calls
  · exact inv.waiting
  · intro installed none early
    apply inv.installed installed none
    intro b member underway
    exact early b (kept b member underway) underway
  · intro own adopting
    obtain ⟨accepted, early, latest⟩ := inv.adopting own adopting
    refine ⟨accepted, ?_, ?_⟩
    · intro b member underway
      exact early b (older b member underway) underway
    · intro calm
      exact latest (quiet calm)
  · intro finished late
    apply inv.finished finished
    intro b member underway
    exact late b (kept b member underway) underway

/-- The entry moved is not underway, before or after. -/
theorem Inv.moveTo_calm (inv : Inv s) (present : s.applies[i]? = some a)
    (before : ¬ Underway s a) (after : ¬ Underway s { a with point := point })
    (still : point ≠ .switching) : Inv (s.moveTo i a point) := by
  apply inv.calm
  · intro j b at_ underway
    rcases ListPlaces.of_set at_ with ⟨-, rfl⟩ | ⟨-, old⟩
    · exact absurd underway after
    · exact old
  · intro b member underway
    obtain ⟨j, at_⟩ := List.mem_iff_getElem?.mp member
    have other : j ≠ i := by
      rintro rfl
      obtain rfl : a = b := Option.some.inj (present.symm.trans at_)
      exact before underway
    exact ListPlaces.mem_of_ne other at_
  · intro b member switching
    rcases ListPlaces.of_mem_set member with rfl | ⟨j, -, old⟩
    · exact absurd switching still
    · exact List.mem_of_getElem? old

theorem Inv.apply (inv : Inv s) (key : ParticipantKey) :
    Inv { s with applies := s.applies ++ [⟨key, .importing⟩] } := by
  have idle : ¬ Underway s ⟨key, .importing⟩ := by
    rintro ⟨-, point | point | point⟩ <;> cases point
  apply inv.calm
  · intro j b at_ underway
    rcases ListPlaces.of_append at_ with old | ⟨-, rfl⟩
    · exact old
    · exact absurd underway idle
  · intro b member _
    exact List.mem_append_left _ member
  · intro b member switching
    rcases List.mem_append.mp member with old | new
    · exact old
    · cases List.mem_singleton.mp new
      cases switching

/-- The ring accepts an own key, with no other underway. -/
theorem Inv.accept {key : ParticipantKey} (inv : Inv s)
    (present : s.applies[i]? = some ⟨key, .importing⟩) (own : s.IsOwn key) (quiet : Quiet s) :
    Inv { s.moveTo i ⟨key, .importing⟩ (.checking false) with
      lastAccepted := some key.keyIndex } := by
  have moved : Underway s ⟨key, .checking false⟩ := ⟨own, Or.inl rfl⟩
  have alone : ∀ b ∈ (s.moveTo i ⟨key, .importing⟩ (.checking false)).applies, Underway s b →
      b = ⟨key, .checking false⟩ := by
    intro b member underway
    rcases ListPlaces.of_mem_set member with rfl | ⟨j, -, old⟩
    · rfl
    · exact absurd underway (quiet b (List.mem_of_getElem? old))
  have busy : ¬ Quiet { s.moveTo i ⟨key, .importing⟩ (.checking false) with
      lastAccepted := some key.keyIndex } := by
    intro calm
    exact calm _ (ListPlaces.set_mem present) moved
  constructor
  · intro j k b c hj hk ub uc
    rcases ListPlaces.of_set hj with ⟨rfl, -⟩ | ⟨-, old⟩
    · rcases ListPlaces.of_set hk with ⟨rfl, -⟩ | ⟨-, old⟩
      · rfl
      · exact absurd uc (quiet c (List.mem_of_getElem? old))
    · exact absurd ub (quiet b (List.mem_of_getElem? old))
  · intro b member underway
    rw [alone b member underway]
  · intro calm
    exact absurd calm busy
  · intro calm
    exact absurd calm busy
  · intro b member switching
    rcases ListPlaces.of_mem_set member with rfl | ⟨j, -, old⟩
    · cases switching
    · exact inv.switching b (List.mem_of_getElem? old) switching
  · exact inv.calls
  · exact inv.waiting
  · intro installed none _
    apply inv.installed installed none
    intro b member underway
    exact absurd underway (quiet b member)
  · intro r adopting
    refine ⟨(inv.adopting r adopting).1, ?_, ?_⟩
    · intro b member underway
      rw [alone b member underway]
    · intro calm
      exact absurd calm busy
  · intro finished late
    cases late _ (ListPlaces.set_mem present) moved

/-- An own key that was accepted looks for the hook, and finds it or goes on without. -/
theorem Inv.check {key : ParticipantKey} {locked : Bool} (inv : Inv s)
    (present : s.applies[i]? = some ⟨key, .checking false⟩) (own : s.IsOwn key)
    (free : s.adopting = false)
    (found : point = .switching ∧ s.hooked = true ∨
      point = .recording false ∧ s.hooked = false) :
    Inv { s.moveTo i ⟨key, .checking false⟩ point with senderLocked := locked } := by
  have before : Underway s ⟨key, .checking false⟩ := ⟨own, Or.inl rfl⟩
  have after : Underway s ⟨key, point⟩ := by
    rcases found with ⟨rfl, -⟩ | ⟨rfl, -⟩
    · exact ⟨own, Or.inr (Or.inl rfl)⟩
    · exact ⟨own, Or.inr (Or.inr rfl)⟩
  have latest := inv.latest _ (List.mem_of_getElem? present) before
  have busy : ¬ Quiet { s.moveTo i ⟨key, .checking false⟩ point with senderLocked := locked } := by
    intro calm
    exact calm _ (ListPlaces.set_mem present) after
  constructor
  · intro j k b c hj hk ub uc
    rcases ListPlaces.of_set hj with ⟨rfl, -⟩ | ⟨other, old⟩
    · rcases ListPlaces.of_set hk with ⟨rfl, -⟩ | ⟨-, old⟩
      · rfl
      · exact inv.alone _ _ _ _ present old before uc
    · exact absurd (inv.alone _ _ _ _ old present ub before) other
  · intro b member underway
    rcases ListPlaces.of_mem_set member with rfl | ⟨j, -, old⟩
    · exact latest
    · exact inv.latest b (List.mem_of_getElem? old) underway
  · intro calm
    exact absurd calm busy
  · intro calm
    exact absurd calm busy
  · intro b member switching
    rcases ListPlaces.of_mem_set member with rfl | ⟨j, -, old⟩
    · rcases found with ⟨-, hooked⟩ | ⟨rfl, -⟩
      · exact ⟨own, hooked⟩
      · cases switching
    · exact inv.switching b (List.mem_of_getElem? old) switching
  · exact inv.calls
  · exact inv.waiting
  · intro installed none early
    have point := early _ (ListPlaces.set_mem present) after
    rcases found with ⟨rfl, -⟩ | ⟨rfl, -⟩ <;> cases point
  · intro r adopting
    simp only [System.adopting, System.moveTo] at free adopting
    rw [adopting] at free
    cases free
  · intro finished late
    have point := late _ (ListPlaces.set_mem present) after
    rcases found with ⟨rfl, -⟩ | ⟨rfl, unhooked⟩
    · cases point
    · simp only [System.hooked, System.moveTo] at unhooked finished
      rw [finished] at unhooked
      cases unhooked

/-- The hook moves the sender to the key that was accepted last. -/
theorem Inv.switch {key : ParticipantKey} (inv : Inv s)
    (present : s.applies[i]? = some ⟨key, .switching⟩) :
    Inv { (s.moveTo i ⟨key, .switching⟩ (.recording false)).setLocalKeyIndex key.keyIndex false
      with senderLocked := false } := by
  have member := List.mem_of_getElem? present
  obtain ⟨own, hooked⟩ := inv.switching _ member rfl
  have before : Underway s ⟨key, .switching⟩ := ⟨own, Or.inr (Or.inl rfl)⟩
  have after : Underway s ⟨key, .recording false⟩ := ⟨own, Or.inr (Or.inr rfl)⟩
  have latest := inv.latest _ member before
  have busy : ¬ Quiet { (s.moveTo i ⟨key, .switching⟩ (.recording false)).setLocalKeyIndex
      key.keyIndex false with senderLocked := false } := by
    intro calm
    exact calm _ (ListPlaces.set_mem present) after
  constructor
  · intro j k b c hj hk ub uc
    rcases ListPlaces.of_set hj with ⟨rfl, -⟩ | ⟨other, old⟩
    · rcases ListPlaces.of_set hk with ⟨rfl, -⟩ | ⟨-, old⟩
      · rfl
      · exact inv.alone _ _ _ _ present old before uc
    · exact absurd (inv.alone _ _ _ _ old present ub before) other
  · intro b member underway
    rcases ListPlaces.of_mem_set member with rfl | ⟨j, -, old⟩
    · exact latest
    · exact inv.latest b (List.mem_of_getElem? old) underway
  · intro calm
    exact absurd calm busy
  · intro calm
    exact absurd calm busy
  · intro b member switching
    rcases ListPlaces.of_mem_set member with rfl | ⟨j, -, old⟩
    · cases switching
    · exact inv.switching b (List.mem_of_getElem? old) switching
  · intro c called
    rcases List.mem_append.mp called with old | new
    · exact inv.calls c old
    · rw [List.mem_singleton.mp new]
  · intro waiting
    change s.attach = .waiting at waiting
    rw [System.hooked, waiting] at hooked
    cases hooked
  · intro installed none early
    cases early _ (ListPlaces.set_mem present) after
  · intro r adopting
    cases (inv.adopting r adopting).2.1 _ member before
  · intro finished late
    exact latest.symm

/-- An own key that was accepted is recorded, which nothing reads meanwhile. -/
theorem Inv.recordAccepted {key : ParticipantKey} (inv : Inv s)
    (present : s.applies[i]? = some ⟨key, .recording false⟩) (own : s.IsOwn key) :
    Inv { s.moveTo i ⟨key, .recording false⟩ .done with
      keys := Function.update s.keys key.rtcBackendIdentity (some ⟨key, false⟩) } := by
  have member := List.mem_of_getElem? present
  have before : Underway s ⟨key, .recording false⟩ := ⟨own, Or.inr (Or.inr rfl)⟩
  have latest := inv.latest _ member before
  have ended : ¬ Underway s ⟨key, .done⟩ := by
    rintro ⟨-, point | point | point⟩ <;> cases point
  have quiet : ∀ b ∈ (s.moveTo i ⟨key, .recording false⟩ .done).applies, ¬ Underway s b := by
    intro b moved underway
    rcases ListPlaces.of_mem_set moved with rfl | ⟨j, other, old⟩
    · exact ended underway
    · exact other (inv.alone _ _ _ _ old present underway before)
  have record : Function.update s.keys key.rtcBackendIdentity (some ⟨key, false⟩)
      s.ownIdentity = some ⟨key, false⟩ := by
    rw [← show key.rtcBackendIdentity = s.ownIdentity from own, Function.update_self]
  constructor
  · intro j k b c hj hk ub uc
    exact absurd ub (quiet b (List.mem_of_getElem? hj))
  · intro b moved underway
    exact absurd underway (quiet b moved)
  · intro calm none
    cases none.symm.trans record
  · intro calm r eq accepted
    cases eq.symm.trans record
    exact latest
  · intro b moved switching
    rcases ListPlaces.of_mem_set moved with rfl | ⟨j, -, old⟩
    · cases switching
    · exact inv.switching b (List.mem_of_getElem? old) switching
  · exact inv.calls
  · exact inv.waiting
  · intro installed none
    cases none.symm.trans record
  · intro r adopting
    cases (inv.adopting r adopting).2.1 _ member before
  · intro finished late
    apply inv.finished finished
    intro b old underway
    obtain ⟨j, at_⟩ := List.mem_iff_getElem?.mp old
    obtain rfl := inv.alone _ _ _ _ at_ present underway before
    obtain rfl : _ = b := Option.some.inj (present.symm.trans at_)
    rfl

/-- A record that is refused or another's tells nothing of the sender. -/
theorem Inv.recordOther {key : ParticipantKey} {refused : Bool} (inv : Inv s)
    (present : s.applies[i]? = some ⟨key, .recording refused⟩)
    (other : ¬ (s.IsOwn key ∧ refused = false)) :
    Inv { s.moveTo i ⟨key, .recording refused⟩ .done with
      keys := Function.update s.keys key.rtcBackendIdentity (some ⟨key, refused⟩) } := by
  have before : ¬ Underway s ⟨key, .recording refused⟩ := by
    rintro ⟨own, point | point | point⟩
    · cases point
    · cases point
    · cases point
      exact other ⟨own, rfl⟩
  have ended : ¬ Underway s ⟨key, .done⟩ := by
    rintro ⟨-, point | point | point⟩ <;> cases point
  have moved : Inv (s.moveTo i ⟨key, .recording refused⟩ .done) :=
    inv.moveTo_calm present before ended (by decide)
  have record : ∀ own, Function.update s.keys key.rtcBackendIdentity (some ⟨key, refused⟩)
      s.ownIdentity = some own → own.refused = false → s.keys s.ownIdentity = some own := by
    intro own eq accepted
    rw [Function.update_apply] at eq
    split_ifs at eq with same
    · cases eq
      exact absurd ⟨same.symm, accepted⟩ other
    · exact eq
  have none_before : Function.update s.keys key.rtcBackendIdentity (some ⟨key, refused⟩)
      s.ownIdentity = none → s.keys s.ownIdentity = none := by
    intro eq
    rw [Function.update_apply] at eq
    split_ifs at eq with same
    exact eq
  constructor
  · exact moved.alone
  · exact moved.latest
  · intro calm none
    exact moved.unrecorded calm (none_before none)
  · intro calm own eq accepted
    exact moved.recorded calm own (record own eq accepted) accepted
  · exact moved.switching
  · exact moved.calls
  · exact moved.waiting
  · intro installed none
    exact moved.installed installed (none_before none)
  · exact moved.adopting
  · exact moved.finished

theorem Inv.setLocalSender (inv : Inv s) (waiting : s.attach = .waiting) :
    Inv { s with attach := .installed } := by
  constructor
  · exact inv.alone
  · exact inv.latest
  · exact inv.unrecorded
  · exact inv.recorded
  · intro a member switching
    exact ⟨(inv.switching a member switching).1, rfl⟩
  · exact inv.calls
  · intro attach
    cases attach
  · intro _ _ _
    exact inv.waiting waiting
  · intro own attach
    cases attach
  · intro attach
    cases attach

/-- Nothing was recorded, so nothing is adopted. -/
theorem Inv.keyForNone (inv : Inv s) (installed : s.attach = .installed)
    (none : s.keys s.ownIdentity = none)
    (early : ∀ a ∈ s.applies, Underway s a → a.point = .checking false) :
    Inv { s with attach := .finished } := by
  constructor
  · exact inv.alone
  · exact inv.latest
  · exact inv.unrecorded
  · exact inv.recorded
  · intro a member switching
    exact ⟨(inv.switching a member switching).1, rfl⟩
  · exact inv.calls
  · intro attach
    cases attach
  · intro attach
    cases attach
  · intro own attach
    cases attach
  · intro _ late
    have quiet : Quiet s := by
      intro a member underway
      cases (early a member underway).symm.trans (late a member underway)
    change s.localKeyIndex = s.lastAccepted
    rw [inv.installed installed none early, inv.unrecorded quiet none]

/-- The record read is of the last key accepted, or one is still to look for the hook. -/
theorem Inv.keyForSome {own : Recorded} (inv : Inv s) (record : s.keys s.ownIdentity = some own)
    (early : ∀ a ∈ s.applies, Underway s a → a.point = .checking false)
    (accepted : own.refused = false) : Inv { s with attach := .adopting own } := by
  constructor
  · exact inv.alone
  · exact inv.latest
  · exact inv.unrecorded
  · exact inv.recorded
  · intro a member switching
    exact ⟨(inv.switching a member switching).1, rfl⟩
  · exact inv.calls
  · intro attach
    cases attach
  · intro attach
    cases attach
  · intro r attach
    cases attach
    exact ⟨accepted, early, fun quiet => inv.recorded quiet own record accepted⟩
  · intro attach
    cases attach

theorem Inv.adopt {own : Recorded} (inv : Inv s) (adopting : s.attach = .adopting own) :
    Inv { s.setLocalKeyIndex own.key.keyIndex own.refused with attach := .finished } := by
  obtain ⟨accepted, early, latest⟩ := inv.adopting own adopting
  constructor
  · exact inv.alone
  · exact inv.latest
  · exact inv.unrecorded
  · exact inv.recorded
  · intro a member switching
    exact ⟨(inv.switching a member switching).1, rfl⟩
  · intro c called
    rcases List.mem_append.mp called with old | new
    · exact inv.calls c old
    · rw [List.mem_singleton.mp new]
      exact accepted
  · intro attach
    cases attach
  · intro attach
    cases attach
  · intro r attach
    cases attach
  · intro _ late
    have quiet : Quiet s := by
      intro a member underway
      cases (early a member underway).symm.trans (late a member underway)
    exact (latest quiet).symm

theorem Inv.imported {answer : Bool} {t : System} (inv : Inv s)
    (turn : InTurn s (.imported i answer)) (h : step s (.imported i answer) = some t) :
    Inv t := by
  simp only [step] at h
  split at h
  · rename_i key present
    cases h
    by_cases accepted : s.IsOwn key ∧ s.refuses key answer = false
    · rw [if_pos accepted, accepted.2]
      exact inv.accept present accepted.1 (turn _ present accepted.1 accepted.2)
    · rw [if_neg accepted]
      apply inv.moveTo_calm present
      · rintro ⟨-, point | point | point⟩ <;> cases point
      · rintro ⟨own, point | point | point⟩
        · exact accepted ⟨own, Point.checking.inj point⟩
        · cases point
        · cases point
      · intro point
        cases point
  · cases h

theorem Inv.checkSender {t : System} (inv : Inv s) (turn : InTurn s (.checkSender i))
    (h : step s (.checkSender i) = some t) : Inv t := by
  simp only [step] at h
  split at h
  · rename_i key refused present
    split_ifs at h with locked found
    · cases h
      obtain ⟨rfl, hooked, own⟩ := found
      exact inv.check present own (turn _ present ⟨own, Or.inl rfl⟩) (Or.inl ⟨rfl, hooked⟩)
    · cases h
      by_cases accepted : s.IsOwn key ∧ refused = false
      · obtain ⟨own, rfl⟩ := accepted
        have unhooked : s.hooked = false := by
          rw [← Bool.not_eq_true]
          intro hooked
          exact found ⟨rfl, hooked, own⟩
        exact inv.check present own (turn _ present ⟨own, Or.inl rfl⟩) (Or.inr ⟨rfl, unhooked⟩)
      · apply inv.moveTo_calm present
        · rintro ⟨own, point | point | point⟩
          · exact accepted ⟨own, Point.checking.inj point⟩
          · cases point
          · cases point
        · rintro ⟨own, point | point | point⟩
          · cases point
          · cases point
          · exact accepted ⟨own, Point.recording.inj point⟩
        · intro point
          cases point
  · cases h

theorem Inv.record {t : System} (inv : Inv s) (h : step s (.record i) = some t) : Inv t := by
  simp only [step] at h
  split at h
  · rename_i key refused present
    cases h
    by_cases accepted : s.IsOwn key ∧ refused = false
    · obtain ⟨own, rfl⟩ := accepted
      exact inv.recordAccepted present own
    · exact inv.recordOther present accepted
  · cases h

theorem Inv.keyFor {t : System} (inv : Inv s) (turn : InTurn s .keyFor)
    (h : step s .keyFor = some t) : Inv t := by
  simp only [step] at h
  split at h
  · rename_i installed
    split at h
    · rename_i none
      cases h
      exact inv.keyForNone installed none turn.1
    · rename_i own record
      cases h
      exact inv.keyForSome record turn.1 (turn.2 own record)
  · cases h
  · cases h
  · cases h

theorem Inv.step {a : Action} {t : System} (inv : Inv s) (turn : InTurn s a)
    (h : SenderAdoption.step s a = some t) : Inv t := by
  cases a with
  | apply key =>
      cases h
      exact inv.apply key
  | imported i answer => exact inv.imported turn h
  | checkSender i => exact inv.checkSender turn h
  | switch i =>
      simp only [SenderAdoption.step] at h
      split at h
      · rename_i key present
        cases h
        exact inv.switch present
      · cases h
  | record i => exact inv.record h
  | setLocalSender =>
      simp only [SenderAdoption.step] at h
      split at h
      · rename_i waiting
        split_ifs at h
        cases h
        exact inv.setLocalSender waiting
      · cases h
      · cases h
      · cases h
  | keyFor => exact inv.keyFor turn h
  | adopt =>
      simp only [SenderAdoption.step] at h
      split at h
      · rename_i own adopting
        cases h
        exact inv.adopt adopting
      · cases h
      · cases h
      · cases h

end Steps

theorem start_inv (ownIdentity : String) (ringSize : Option ℕ) :
    Inv (start ownIdentity ringSize) := by
  constructor
  · intro i j a b present
    cases present
  · intro a member
    cases member
  · intro _ _
    rfl
  · intro _ own record
    cases record
  · intro a member
    cases member
  · intro c called
    cases called
  · intro _
    rfl
  · intro attach
    cases attach
  · intro own attach
    cases attach
  · intro attach
    cases attach

/-- The key in use is adopted in every run in which own keys are accepted one after the
other and the record is read and adopted between two of them. -/
theorem adopts_key_in_use (ownIdentity : String) (ringSize : Option ℕ) (as : List Action)
    {t : System} (turns : Admissible step InTurn (start ownIdentity ringSize) as)
    (h : run step (start ownIdentity ringSize) as = some t) : Adopted t := by
  have inv : Inv t := by
    apply run_invariant (I := Inv) _ (start_inv ownIdentity ringSize) turns h
    intro s a u inv turn taken
    exact inv.step turn taken
  constructor
  · exact inv.calls
  · intro finished
    apply inv.finished finished.2
    rintro a member ⟨-, point | point | point⟩
    · cases (finished.1 a member).symm.trans point
    · cases (finished.1 a member).symm.trans point
    · exact point

section Runs

def firstKey : ParticipantKey := ⟨"@alice:x:A", 0, [1]⟩

def rotatedKey : ParticipantKey := ⟨"@alice:x:A", 1, [2]⟩

/-- The first key is applied before the attach. -/
def applied : List Action := [.apply firstKey, .imported 0 true, .checkSender 0, .record 0]

/-- The rotation is applied after the hook was installed, before the record is read. -/
theorem applied_adopts : ∃ t, run step (start "@alice:x:A" (some 255)) (applied ++
    [.setLocalSender, .apply rotatedKey, .imported 1 true, .checkSender 1, .switch 1, .record 1,
      .keyFor, .adopt]) = some t ∧ Adopted t := by
  refine ⟨_, rfl, ?_⟩
  exact adopts_key_in_use "@alice:x:A" (some 255) (applied ++
    [.setLocalSender, .apply rotatedKey, .imported 1 true, .checkSender 1, .switch 1, .record 1,
      .keyFor, .adopt]) (by decide) rfl

/-- The rotation looks for the hook just before it is installed, and is recorded just
after the record was read. -/
theorem not_always_adopted : ¬ ∀ (ownIdentity : String) (ringSize : Option ℕ)
    (as : List Action) (t : System), run step (start ownIdentity ringSize) as = some t →
      Adopted t := by
  intro always
  have broken := (always "@alice:x:A" (some 255) (applied ++
    [.apply rotatedKey, .imported 1 true, .checkSender 1, .setLocalSender, .keyFor, .record 1,
      .adopt]) _ rfl).adopted (by decide)
  revert broken
  decide

/-- A refused key that was recorded is adopted. -/
example : ∃ t, run step (start "@alice:x:A" (some 255)) (applied ++
    [.apply rotatedKey, .imported 1 false, .checkSender 1, .record 1, .setLocalSender, .keyFor,
      .adopt]) = some t ∧ t.localKeyIndex = some 1 ∧ t.lastAccepted = some 0 ∧
        t.calls = [⟨1, true⟩] := by
  exact ⟨_, rfl, by decide⟩

end Runs

end MatrixRtc.SenderAdoption

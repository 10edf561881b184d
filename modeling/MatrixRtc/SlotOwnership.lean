import MatrixRtc.SendSlots
import MatrixRtc.StepRuns
import Mathlib.Data.Finset.Card
import Mathlib.Data.Finset.Range

/-!
# What the slot table promises the sends of a key

A slot's entry stays while a send of its key is alive, since each of them counts on
it, so a generation is never handed out twice among the live. Of these at most one is
at its attempt. An attempt by a send that a newer one or a cancellation overtook is
another matter: the claim looks and takes under two acquisitions, and what lands
between them goes unseen exactly when the slot is free by then.
-/
namespace MatrixRtc.SlotOwnership
open StepRuns SendSlots

/-- Since the send was registered a newer one of its key was, or its key cancelled. -/
def overtaken (id : ℕ) (key : SlotKey) : List Event → Bool
  | [] => false
  | .registered other key' :: older => other != id && (key' == key || overtaken id key older)
  | .cancelled target :: older => target.matches key || overtaken id key older
  | .attempted _ _ :: older => overtaken id key older

/-- No send that was overtaken has started an attempt. -/
def Orderly : List Event → Prop
  | [] => True
  | .attempted id key :: older => overtaken id key older = false ∧ Orderly older
  | .registered _ _ :: older => Orderly older
  | .cancelled _ :: older => Orderly older

instance Orderly.decidable : DecidablePred Orderly
  | [] => isTrue trivial
  | .attempted _ _ :: older =>
      have := Orderly.decidable older
      inferInstanceAs (Decidable (_ ∧ _))
  | .registered _ _ :: older => Orderly.decidable older
  | .cancelled _ :: older => Orderly.decidable older

/-- What the sends of a key may rely on. -/
structure Ownership (s : System) : Prop where
  exclusive : ∀ id id' send send', s.sends id = some send → s.sends id' = some send' →
    send.key = send'.key → send.point = .attempting → send'.point = .attempting → id = id'
  present : ∀ id send, s.sends id = some send →
    ∃ slot, s.slots send.key = some slot ∧ send.generation ≤ slot.generation
  current : ∀ id id' send send' slot, s.sends id = some send → s.sends id' = some send' →
    send.key = send'.key → s.slots send.key = some slot →
    send.generation = slot.generation → send'.generation = slot.generation → id = id'
  orderly : Orderly s.events

/-- No generation restarted under a send alive in both. -/
def GenerationsKept (s t : System) : Prop :=
  ∀ id send send', s.sends id = some send → t.sends id = some send' →
    ∃ slot slot', s.slots send.key = some slot ∧ t.slots send.key = some slot' ∧
      slot.generation ≤ slot'.generation

/-- A claim that finds its slot free on the second acquisition has not ended by then. -/
def TakenInTime (s : System) : Action → Prop
  | .take id => ∀ send ∈ s.standing id .checked,
      (s.slots.entry send.key).inFlight = true ∨
        s.slots.ended send.key send.generation = none
  | _ => True

instance TakenInTime.decidable (s : System) : DecidablePred (TakenInTime s)
  | .take _ => inferInstanceAs (Decidable (∀ send ∈ s.standing _ _, _))
  | .beginSend _ | .cancel _ | .check _ | .endFlight _ _ | .judge _ _ | .poked _ _
  | .wake _ | .stop _ | .dropSend _ => isTrue trivial

/-- Key and generation of a send, which it keeps until it is dropped. -/
def label (s : System) (id : ℕ) : Option (SlotKey × ℕ) :=
  (s.sends id).map fun send => (send.key, send.generation)

theorem label_of_live {s : System} {id : ℕ} {send : PendingSend} (live : s.sends id = some send) :
    label s id = some (send.key, send.generation) := by
  simp [label, live]

/-- What of a slot an attempt does not touch. -/
def tally (slots : Slots) (key : SlotKey) : Option (ℕ × ℕ) :=
  (slots key).map fun slot => (slot.generation, slot.waiting)

theorem tally_of_present {slots : Slots} {key : SlotKey} {slot : Slot}
    (present : slots key = some slot) :
    tally slots key = some (slot.generation, slot.waiting) := by
  simp [tally, present]

/-- The sends of a key that are alive. -/
def holders (s : System) (key : SlotKey) : Finset ℕ :=
  (Finset.range s.registered).filter fun id => (label s id).any (·.1 == key)

/-- Every live send is counted in its slot, and has its own generation there, which is
the slot's current one unless the send was overtaken. -/
structure Counted (s : System) : Prop where
  registered : ∀ id key generation, label s id = some (key, generation) → id < s.registered
  waiting : ∀ key generation waiting, tally s.slots key = some (generation, waiting) →
    waiting = (holders s key).card
  present : ∀ id key generation, label s id = some (key, generation) →
    ∃ newest waiting, tally s.slots key = some (newest, waiting) ∧ generation ≤ newest
  distinct : ∀ id id' key generation, label s id = some (key, generation) →
    label s id' = some (key, generation) → id = id'
  current : ∀ id key generation newest waiting, label s id = some (key, generation) →
    tally s.slots key = some (newest, waiting) →
    (generation = newest ↔ overtaken id key s.events = false)

theorem mem_holders {s : System}
    (registered : ∀ id key generation, label s id = some (key, generation) → id < s.registered)
    {id : ℕ} {key : SlotKey} :
    id ∈ holders s key ↔ ∃ generation, label s id = some (key, generation) := by
  rw [holders, Finset.mem_filter, Finset.mem_range, Option.any_eq_true]
  constructor
  · rintro ⟨-, ⟨key', generation⟩, eq, same⟩
    obtain rfl : key' = key := beq_iff_eq.mp same
    exact ⟨generation, eq⟩
  · rintro ⟨generation, eq⟩
    exact ⟨registered id key generation eq, (key, generation), eq, beq_self_eq_true key⟩

theorem Counted.congr {s t : System} (counted : Counted s) (labels : label t = label s)
    (tallies : tally t.slots = tally s.slots) (registered : t.registered = s.registered)
    (events : ∀ id key, overtaken id key t.events = overtaken id key s.events) :
    Counted t := by
  have same (key : SlotKey) : holders t key = holders s key := by
    rw [holders, holders, labels, registered]
  constructor
  · rw [labels, registered]
    exact counted.registered
  · intro key generation waiting eq
    rw [tallies] at eq
    rw [same]
    exact counted.waiting key generation waiting eq
  · rw [labels, tallies]
    exact counted.present
  · rw [labels]
    exact counted.distinct
  · intro id key generation newest waiting eq eq'
    rw [labels] at eq
    rw [tallies] at eq'
    rw [events]
    exact counted.current id key generation newest waiting eq eq'

theorem label_update (s : System) (id : ℕ) (next : Option PendingSend) :
    label { s with sends := Function.update s.sends id next } =
      Function.update (label s) id (next.map fun send => (send.key, send.generation)) := by
  funext other
  by_cases eq : other = id
  · subst eq
    simp [label]
  · simp [label, eq]

theorem tally_update (slots : Slots) (key : SlotKey) (next : Option Slot) :
    tally (Function.update slots key next) =
      Function.update (tally slots) key (next.map fun slot => (slot.generation, slot.waiting)) := by
  funext other
  by_cases eq : other = key
  · subst eq
    simp [tally]
  · simp [tally, eq]

theorem label_move {s : System} {id : ℕ} {send : PendingSend} (live : s.sends id = some send)
    (point : Point) : label (s.move id send point) = label s := by
  have own := label_of_live live
  rw [System.move, label_update, Option.map_some, ← own, Function.update_eq_self]

theorem tally_take {slots : Slots} {key : SlotKey} {slot : Slot} (present : slots key = some slot) :
    tally (slots.take key) = tally slots := by
  have own := tally_of_present present
  have entry : slots.entry key = slot := by simp [Slots.entry, present]
  rw [Slots.take, tally_update, Option.map_some, entry, ← own, Function.update_eq_self]

theorem tally_endFlight {slots : Slots} {key : SlotKey} {slot : Slot}
    (present : slots key = some slot) (used : slot.waiting ≠ 0) :
    tally (slots.release key fun slot => { slot with inFlight := false }) = tally slots := by
  have own := tally_of_present present
  simp only [Slots.release, present, used, false_and, if_false]
  rw [tally_update, Option.map_some, ← own, Function.update_eq_self]

theorem tally_dropSend {slots : Slots} {key : SlotKey} {slot : Slot}
    (present : slots key = some slot) :
    tally (slots.release key fun slot => { slot with waiting := slot.waiting - 1 }) =
      Function.update (tally slots) key
        (if slot.waiting - 1 = 0 ∧ slot.inFlight = false then none
        else some (slot.generation, slot.waiting - 1)) := by
  simp only [Slots.release, present]
  by_cases unused : slot.waiting - 1 = 0 ∧ slot.inFlight = false
  · rw [if_pos unused, if_pos unused, tally_update, Option.map_none]
  · rw [if_neg unused, if_neg unused, tally_update, Option.map_some]

theorem Counted.new : Counted .new := by
  constructor
  · intro id key generation eq
    cases eq
  · intro key generation waiting eq
    cases eq
  · intro id key generation eq
    cases eq
  · intro id id' key generation eq
    cases eq
  · intro id key generation newest waiting eq
    cases eq

theorem label_beginSend (s : System) (key : SlotKey) :
    label (s.beginSend key) =
      Function.update (label s) s.registered
        (some (key, (s.slots.entry key).generation + 1)) := by
  have eq := label_update s s.registered
    (some ⟨key, (s.slots.entry key).generation + 1, .ready⟩)
  exact eq

theorem tally_register (slots : Slots) (key : SlotKey) :
    tally (slots.register key) =
      Function.update (tally slots) key
        (some ((slots.entry key).generation + 1, (slots.entry key).waiting + 1)) :=
  tally_update slots key (some (slots.entry key).register)

theorem tally_cancelWhere (slots : Slots) (target : Target) (key : SlotKey) :
    tally (slots.cancelWhere target) key =
      (tally slots key).map fun counts =>
        (if target.matches key then counts.1 + 1 else counts.1, counts.2) := by
  simp only [tally, Slots.cancelWhere, Option.map_map]
  congr 1
  funext slot
  by_cases hit : target.matches key
  · simp [hit]
  · simp [hit]

theorem entry_of_tally {slots : Slots} {key : SlotKey} {newest waiting : ℕ}
    (h : tally slots key = some (newest, waiting)) :
    (slots.entry key).generation = newest ∧ (slots.entry key).waiting = waiting := by
  obtain ⟨slot, present, eq⟩ := Option.map_eq_some_iff.mp h
  cases eq
  simp [Slots.entry, present]

theorem Counted.le_entry {s : System} (counted : Counted s) {id : ℕ} {key : SlotKey}
    {generation : ℕ} (live : label s id = some (key, generation)) :
    generation ≤ (s.slots.entry key).generation := by
  obtain ⟨newest, waiting, eq, le⟩ := counted.present id key generation live
  rw [(entry_of_tally eq).1]
  exact le

theorem Counted.waiting_entry {s : System} (counted : Counted s) (key : SlotKey) :
    (s.slots.entry key).waiting = (holders s key).card := by
  cases eq : s.slots key with
  | some slot =>
      have own := tally_of_present eq
      rw [(entry_of_tally own).2]
      exact counted.waiting key slot.generation slot.waiting own
  | none =>
      have empty : holders s key = ∅ := by
        rw [Finset.eq_empty_iff_forall_notMem]
        intro id member
        obtain ⟨generation, live⟩ := (mem_holders counted.registered).mp member
        obtain ⟨newest, waiting, own, -⟩ := counted.present id key generation live
        simp [tally, eq] at own
      rw [empty, Slots.entry, eq]
      rfl

theorem Counted.beginSend {s : System} (counted : Counted s) (key : SlotKey) :
    Counted (s.beginSend key) := by
  have labels := label_beginSend s key
  have tallies : tally (s.beginSend key).slots = _ := tally_register s.slots key
  have fresh (id : ℕ) {key' : SlotKey} {generation : ℕ}
      (live : label s id = some (key', generation)) : id ≠ s.registered :=
    (counted.registered id key' generation live).ne
  -- a label of the new state is the new send's, or one of the old state
  have split {id : ℕ} {key' : SlotKey} {generation : ℕ}
      (live : label (s.beginSend key) id = some (key', generation)) :
      (id = s.registered ∧ key' = key ∧ generation = (s.slots.entry key).generation + 1) ∨
        label s id = some (key', generation) := by
    rw [labels, Function.update_apply] at live
    split_ifs at live with eq
    · cases live
      exact Or.inl ⟨eq, rfl, rfl⟩
    · exact Or.inr live
  have registered (id : ℕ) (key' : SlotKey) (generation : ℕ)
      (live : label (s.beginSend key) id = some (key', generation)) : id < s.registered + 1 := by
    rcases split live with ⟨rfl, -, -⟩ | old
    · omega
    · have := counted.registered id key' generation old
      omega
  constructor
  · exact registered
  · intro key' generation waiting own
    have old_of_ne {id : ℕ} (ne : id ≠ s.registered) :
        label (s.beginSend key) id = label s id := by
      rw [labels, Function.update_of_ne ne]
    rw [tallies, Function.update_apply] at own
    split_ifs at own with eq
    · cases own
      subst eq
      have members : holders (s.beginSend key') key' = insert s.registered (holders s key') := by
        ext id
        rw [Finset.mem_insert, mem_holders registered, mem_holders counted.registered]
        by_cases new : id = s.registered
        · simp [new, labels]
        · rw [old_of_ne new]
          exact (or_iff_right new).symm
      have absent : s.registered ∉ holders s key' := by
        intro member
        exact absurd (Finset.mem_range.mp (Finset.mem_filter.mp member).1) (Nat.lt_irrefl _)
      rw [members, Finset.card_insert_of_notMem absent, counted.waiting_entry key']
    · have members : holders (s.beginSend key) key' = holders s key' := by
        ext id
        rw [mem_holders registered, mem_holders counted.registered]
        by_cases new : id = s.registered
        · subst new
          constructor
          · rintro ⟨generation', live⟩
            rcases split live with ⟨-, same, -⟩ | old
            · exact absurd same eq
            · exact ⟨generation', old⟩
          · rintro ⟨generation', live⟩
            exact absurd rfl (fresh s.registered live)
        · rw [old_of_ne new]
      rw [members]
      exact counted.waiting key' generation waiting own
  · intro id key' generation live
    rw [tallies, Function.update_apply]
    rcases split live with ⟨-, rfl, rfl⟩ | old
    · exact ⟨_, _, if_pos rfl, Nat.le_refl _⟩
    · by_cases eq : key' = key
      · subst eq
        have := counted.le_entry old
        exact ⟨_, _, if_pos rfl, by omega⟩
      · rw [if_neg eq]
        exact counted.present id key' generation old
  · intro id id' key' generation live live'
    rcases split live with ⟨rfl, rfl, rfl⟩ | old
    · rcases split live' with ⟨rfl, -, -⟩ | old'
      · rfl
      · have := counted.le_entry old'
        omega
    · rcases split live' with ⟨rfl, rfl, rfl⟩ | old'
      · have := counted.le_entry old
        omega
      · exact counted.distinct id id' key' generation old old'
  · intro id key' generation newest waiting live own
    rw [tallies, Function.update_apply] at own
    change _ ↔ (s.registered != id && (key == key' || overtaken id key' s.events)) = false
    rcases split live with ⟨rfl, rfl, rfl⟩ | old
    · rw [if_pos rfl] at own
      cases own
      simp
    · have older : (s.registered != id) = true := by simp [(fresh id old).symm]
      rw [older, Bool.true_and]
      split_ifs at own with eq
      · cases own
        subst eq
        have := counted.le_entry old
        have newer : generation ≠ (s.slots.entry key').generation + 1 := by omega
        simp [newer]
      · have other : (key == key') = false := by simp [Ne.symm eq]
        rw [other, Bool.false_or]
        exact counted.current id key' generation newest waiting old own

theorem Counted.cancelWhere {s : System} (counted : Counted s) (target : Target) :
    Counted (s.cancelWhere target) := by
  have labels : label (s.cancelWhere target) = label s := rfl
  have members (key : SlotKey) : holders (s.cancelWhere target) key = holders s key := rfl
  have tallies (key : SlotKey) : tally (s.cancelWhere target).slots key = _ :=
    tally_cancelWhere s.slots target key
  constructor
  · exact counted.registered
  · intro key generation waiting own
    rw [tallies] at own
    obtain ⟨⟨newest, waiting'⟩, old, eq⟩ := Option.map_eq_some_iff.mp own
    cases eq
    rw [members]
    exact counted.waiting key newest waiting' old
  · intro id key generation live
    obtain ⟨newest, waiting, own, le⟩ := counted.present id key generation live
    rw [tallies, own, Option.map_some]
    refine ⟨_, _, rfl, ?_⟩
    change generation ≤ if target.matches key then newest + 1 else newest
    split_ifs
    · omega
    · exact le
  · exact counted.distinct
  · intro id key generation newest waiting live own
    rw [tallies] at own
    obtain ⟨⟨older, waiting'⟩, old, eq⟩ := Option.map_eq_some_iff.mp own
    cases eq
    change _ ↔ (target.matches key || overtaken id key s.events) = false
    cases hit : target.matches key with
    | false =>
        simp only [Bool.false_eq_true, if_false, Bool.false_or]
        exact counted.current id key generation older waiting' live old
    | true =>
        obtain ⟨newest, count, own, le⟩ := counted.present id key generation live
        cases old.symm.trans own
        have newer : generation ≠ older + 1 := by omega
        simp [newer]

theorem Counted.dropSend {s : System} (counted : Counted s) {id : ℕ} {send : PendingSend}
    (live : s.sends id = some send) : Counted (s.dropSend id send) := by
  have own := label_of_live live
  obtain ⟨newest, waiting, counts, -⟩ := counted.present id send.key send.generation own
  obtain ⟨slot, present, eq⟩ := Option.map_eq_some_iff.mp counts
  cases eq
  have labels : label (s.dropSend id send) = Function.update (label s) id none :=
    label_update s id none
  have tallies : tally (s.dropSend id send).slots = _ := tally_dropSend present
  have old {id' : ℕ} {key : SlotKey} {generation : ℕ}
      (live' : label (s.dropSend id send) id' = some (key, generation)) :
      id' ≠ id ∧ label s id' = some (key, generation) := by
    rw [labels, Function.update_apply] at live'
    split_ifs at live' with same
    exact ⟨same, live'⟩
  have registered (id' : ℕ) (key : SlotKey) (generation : ℕ)
      (live' : label (s.dropSend id send) id' = some (key, generation)) : id' < s.registered :=
    counted.registered id' key generation (old live').2
  have members : holders (s.dropSend id send) send.key = (holders s send.key).erase id := by
    ext id'
    rw [Finset.mem_erase, mem_holders registered, mem_holders counted.registered]
    constructor
    · rintro ⟨generation, live'⟩
      exact ⟨(old live').1, generation, (old live').2⟩
    · rintro ⟨other, generation, live'⟩
      exact ⟨generation, by rw [labels, Function.update_of_ne other, live']⟩
  have member : id ∈ holders s send.key :=
    (mem_holders counted.registered).mpr ⟨send.generation, own⟩
  have total : slot.waiting = (holders s send.key).card :=
    counted.waiting send.key slot.generation slot.waiting counts
  -- the slot of another live send of the key is still counted on
  have kept {key : SlotKey} {newest waiting : ℕ}
      (counts' : tally (s.dropSend id send).slots key = some (newest, waiting)) :
      ∃ waiting', tally s.slots key = some (newest, waiting') := by
    rw [tallies, Function.update_apply] at counts'
    split_ifs at counts' with same unused
    · cases counts'
      subst same
      exact ⟨_, counts⟩
    · exact ⟨_, counts'⟩
  constructor
  · exact registered
  · intro key newest waiting counts'
    rw [tallies, Function.update_apply] at counts'
    split_ifs at counts' with same unused
    · cases counts'
      subst same
      rw [members, Finset.card_erase_of_mem member, total]
    · have members' : holders (s.dropSend id send) key = holders s key := by
        ext id'
        rw [mem_holders registered, mem_holders counted.registered]
        constructor
        · rintro ⟨generation, live'⟩
          exact ⟨generation, (old live').2⟩
        · rintro ⟨generation, live'⟩
          have other : id' ≠ id := by
            rintro rfl
            cases own.symm.trans live'
            exact same rfl
          exact ⟨generation, by rw [labels, Function.update_of_ne other, live']⟩
      rw [members']
      exact counted.waiting key newest waiting counts'
  · intro id' key generation live'
    obtain ⟨other, live'⟩ := old live'
    obtain ⟨newest, waiting, counts', le⟩ := counted.present id' key generation live'
    rw [tallies, Function.update_apply]
    by_cases same : key = send.key
    · subst same
      cases counts.symm.trans counts'
      have member' : id' ∈ holders s send.key :=
        (mem_holders counted.registered).mpr ⟨generation, live'⟩
      have two := Finset.card_le_card (Finset.insert_subset member
        (Finset.singleton_subset_iff.mpr member'))
      rw [Finset.card_pair (Ne.symm other), ← total] at two
      have used : ¬ (slot.waiting - 1 = 0 ∧ slot.inFlight = false) := by
        rintro ⟨none_left, -⟩
        omega
      rw [if_pos rfl, if_neg used]
      exact ⟨slot.generation, slot.waiting - 1, rfl, le⟩
    · rw [if_neg same]
      exact ⟨newest, waiting, counts', le⟩
  · intro id' id'' key generation live' live''
    exact counted.distinct id' id'' key generation (old live').2 (old live'').2
  · intro id' key generation newest waiting live' counts'
    obtain ⟨waiting', counts''⟩ := kept counts'
    exact counted.current id' key generation newest waiting' (old live').2 counts''

theorem Counted.slot {s : System} (counted : Counted s) {id : ℕ} {send : PendingSend}
    (live : s.sends id = some send) :
    ∃ slot, s.slots send.key = some slot ∧ send.generation ≤ slot.generation ∧
      slot.waiting ≠ 0 := by
  have own := label_of_live live
  obtain ⟨newest, waiting, counts, le⟩ := counted.present id send.key send.generation own
  obtain ⟨slot, present, eq⟩ := Option.map_eq_some_iff.mp counts
  cases eq
  have total := counted.waiting send.key slot.generation slot.waiting counts
  have member : id ∈ holders s send.key :=
    (mem_holders counted.registered).mpr ⟨send.generation, own⟩
  have some_left := Finset.card_pos.mpr ⟨id, member⟩
  exact ⟨slot, present, le, by omega⟩

theorem Counted.step {s t : System} {a : Action} (counted : Counted s)
    (h : ActionStep s a t) : Counted t := by
  cases h with
  | beginSend key => exact counted.beginSend key
  | cancel target => exact counted.cancelWhere target
  | move live other act => exact counted.congr (label_move live _) rfl rfl fun _ _ => rfl
  | busy live busy => exact counted.congr (label_move live _) rfl rfl fun _ _ => rfl
  | @attempt id send live point free =>
      obtain ⟨slot, present, -, -⟩ := counted.slot live
      have eq : s.takeSlot id send = _ := if_neg (by simp [free])
      rw [eq]
      exact counted.congr (label_move live _) (tally_take present) rfl fun _ _ => rfl
  | endFlight dropped live point =>
      obtain ⟨slot, present, -, used⟩ := counted.slot live
      exact counted.congr (label_move live _) (tally_endFlight present used) rfl fun _ _ => rfl
  | dropSend live point => exact counted.dropSend live

/-- An attempt holds its slot, alone. -/
structure Flights (s : System) : Prop where
  inFlight : ∀ id send, s.sends id = some send → send.point = .attempting →
    ∃ slot, s.slots send.key = some slot ∧ slot.inFlight = true
  exclusive : ∀ id id' send send', s.sends id = some send → s.sends id' = some send' →
    send.key = send'.key → send.point = .attempting → send'.point = .attempting → id = id'

theorem Flights.of_sub {s t : System} (flights : Flights s)
    (sends : ∀ id send, t.sends id = some send → send.point = .attempting →
      s.sends id = some send)
    (slots : ∀ key slot, s.slots key = some slot → slot.inFlight = true →
      ∃ slot', t.slots key = some slot' ∧ slot'.inFlight = true) : Flights t := by
  constructor
  · intro id send live point
    obtain ⟨slot, present, busy⟩ := flights.inFlight id send (sends id send live point) point
    exact slots send.key slot present busy
  · intro id id' send send' live live' same point point'
    exact flights.exclusive id id' send send' (sends id send live point)
      (sends id' send' live' point') same point point'

theorem Flights.new : Flights .new := by
  constructor
  · intro id send live
    cases live
  · intro id id' send send' live
    cases live

theorem inFlight_register {slots : Slots} {key key' : SlotKey} {slot : Slot}
    (present : slots key' = some slot) (busy : slot.inFlight = true) :
    ∃ slot', slots.register key key' = some slot' ∧ slot'.inFlight = true := by
  by_cases eq : key' = key
  · subst eq
    have entry : slots.entry key' = slot := by simp [Slots.entry, present]
    refine ⟨slot.register, ?_, busy⟩
    rw [Slots.register, Function.update_self, entry]
  · exact ⟨slot, by rw [Slots.register, Function.update_of_ne eq, present], busy⟩

theorem inFlight_cancelWhere {slots : Slots} {target : Target} {key : SlotKey} {slot : Slot}
    (present : slots key = some slot) (busy : slot.inFlight = true) :
    ∃ slot', slots.cancelWhere target key = some slot' ∧ slot'.inFlight = true := by
  simp only [Slots.cancelWhere, present, Option.map_some]
  refine ⟨_, rfl, ?_⟩
  split_ifs
  · exact busy
  · exact busy

theorem release_of_ne {slots : Slots} {key key' : SlotKey} {update : Slot → Slot}
    (other : key' ≠ key) : slots.release key update key' = slots key' := by
  unfold Slots.release
  cases slots key with
  | none => rfl
  | some slot =>
      dsimp only
      split_ifs
      · rw [Function.update_of_ne other]
      · rw [Function.update_of_ne other]

theorem inFlight_dropSend {slots : Slots} {key key' : SlotKey} {slot : Slot}
    (present : slots key' = some slot) (busy : slot.inFlight = true) :
    ∃ slot', slots.release key (fun slot => { slot with waiting := slot.waiting - 1 }) key' =
      some slot' ∧ slot'.inFlight = true := by
  by_cases eq : key' = key
  · subst eq
    refine ⟨{ slot with waiting := slot.waiting - 1 }, ?_, busy⟩
    simp [Slots.release, present, busy]
  · exact ⟨slot, by rw [release_of_ne eq, present], busy⟩

theorem move_sends {s : System} {id id' : ℕ} {send send' : PendingSend} {point : Point}
    (h : (s.move id send point).sends id' = some send') :
    (id' = id ∧ send' = { send with point := point }) ∨ (id' ≠ id ∧ s.sends id' = some send') := by
  simp only [System.move, Function.update_apply] at h
  split_ifs at h with eq
  · cases h
    exact Or.inl ⟨eq, rfl⟩
  · exact Or.inr ⟨eq, h⟩

theorem Flights.move {s : System} (flights : Flights s) {id : ℕ} {send : PendingSend}
    {point : Point} (other : point ≠ .attempting) : Flights (s.move id send point) := by
  apply flights.of_sub
  · intro id' send' live attempting
    rcases move_sends live with ⟨-, rfl⟩ | ⟨-, old⟩
    · exact absurd attempting other
    · exact old
  · intro key slot present busy
    exact ⟨slot, present, busy⟩

theorem Flights.attempt {s : System} (flights : Flights s) {id : ℕ} {send : PendingSend}
    (free : (s.slots.entry send.key).inFlight = false) : Flights (s.takeSlot id send) := by
  have eq : s.takeSlot id send = _ := if_neg (by simp [free])
  rw [eq]
  -- no attempt of the key was under way
  have alone (id' : ℕ) (send' : PendingSend) (live : s.sends id' = some send')
      (attempting : send'.point = .attempting) : send'.key ≠ send.key := by
    intro same
    obtain ⟨slot, present, busy⟩ := flights.inFlight id' send' live attempting
    rw [← same, Slots.entry, present] at free
    cases busy.symm.trans free
  constructor
  · intro id' send' live attempting
    change ∃ slot, s.slots.take send.key send'.key = some slot ∧ slot.inFlight = true
    rcases move_sends live with ⟨-, rfl⟩ | ⟨-, old⟩
    · exact ⟨_, Function.update_self _ _ _, rfl⟩
    · rw [Slots.take, Function.update_of_ne (alone id' send' old attempting)]
      exact flights.inFlight id' send' old attempting
  · intro id₁ id₂ send₁ send₂ live₁ live₂ same attempting₁ attempting₂
    rcases move_sends live₁ with ⟨rfl, rfl⟩ | ⟨-, old₁⟩
    · rcases move_sends live₂ with ⟨rfl, -⟩ | ⟨-, old₂⟩
      · rfl
      · exact absurd same.symm (alone id₂ send₂ old₂ attempting₂)
    · rcases move_sends live₂ with ⟨rfl, rfl⟩ | ⟨-, old₂⟩
      · exact absurd same (alone id₁ send₁ old₁ attempting₁)
      · exact flights.exclusive id₁ id₂ send₁ send₂ old₁ old₂ same attempting₁ attempting₂

theorem Flights.endFlight {s : System} (flights : Flights s) {id : ℕ} {send : PendingSend}
    (dropped : Bool) (live : s.sends id = some send) (point : send.point = .attempting) :
    Flights (s.endFlight id send dropped) := by
  have notAttempting : (if dropped then Point.finished else .judging) ≠ .attempting := by
    cases dropped <;> decide
  have moved : Flights (s.move id send (if dropped then .finished else .judging)) :=
    flights.move notAttempting
  constructor
  · intro id' send' live' attempting
    rcases move_sends live' with ⟨-, rfl⟩ | ⟨other, old⟩
    · exact absurd attempting notAttempting
    · have ne : send'.key ≠ send.key := by
        intro same
        exact other (flights.exclusive id' id send' send old live same attempting point)
      change ∃ slot, s.slots.release send.key _ send'.key = some slot ∧ slot.inFlight = true
      rw [release_of_ne ne]
      exact flights.inFlight id' send' old attempting
  · exact moved.exclusive

theorem Flights.step {s t : System} {a : Action} (flights : Flights s)
    (h : ActionStep s a t) : Flights t := by
  cases h with
  | beginSend key =>
      apply flights.of_sub
      · intro id send live attempting
        simp only [System.beginSend, Function.update_apply] at live
        split_ifs at live
        · cases live
          cases attempting
        · exact live
      · intro key' slot present busy
        exact inFlight_register present busy
  | cancel target =>
      apply flights.of_sub
      · intro id send live attempting
        exact live
      · intro key slot present busy
        exact inFlight_cancelWhere present busy
  | move live other act => exact flights.move other
  | busy live busy => exact flights.move (by decide)
  | attempt live point free => exact flights.attempt free
  | endFlight dropped live point => exact flights.endFlight dropped live point
  | @dropSend id send live point =>
      apply flights.of_sub
      · intro id' send' live' attempting
        simp only [System.dropSend, Function.update_apply] at live'
        split_ifs at live'
        exact live'
      · intro key slot present busy
        exact inFlight_dropSend present busy

theorem takenInTime_iff {s : System} (counted : Counted s) {id : ℕ} {send : PendingSend}
    (live : s.sends id = some send) (point : send.point = .checked)
    (free : (s.slots.entry send.key).inFlight = false) :
    TakenInTime s (.take id) ↔ overtaken id send.key s.events = false := by
  obtain ⟨slot, present, -, -⟩ := counted.slot live
  have own := label_of_live live
  have counts := tally_of_present present
  rw [← counted.current id send.key send.generation slot.generation slot.waiting own counts]
  have here : s.standing id .checked = some send := System.standing_eq_some.mpr ⟨live, point⟩
  have ended : s.slots.ended send.key send.generation = slot.toSlot.ended send.generation := by
    simp [Slots.ended, present]
  simp only [TakenInTime, here, Option.mem_some_iff, forall_eq', free, Bool.false_eq_true,
    false_or, ended, Outboxes.Slot.ended_eq_none]
  exact eq_comm

theorem step_orderly_iff {s t : System} {a : Action} (counted : Counted s)
    (h : ActionStep s a t) : Orderly t.events ↔ Orderly s.events ∧ TakenInTime s a := by
  cases h with
  | beginSend key => exact (and_iff_left trivial).symm
  | cancel target => exact (and_iff_left trivial).symm
  | @move a id send point live other act =>
      have inTime : TakenInTime s a := by
        cases a with
        | take id => exact absurd rfl (act id)
        | _ => trivial
      exact (and_iff_left inTime).symm
  | @busy id send live busy =>
      have inTime : TakenInTime s (.take id) := by
        intro send' here
        obtain ⟨live', -⟩ := System.standing_eq_some.mp here
        cases live.symm.trans live'
        exact Or.inl busy
      exact (and_iff_left inTime).symm
  | @attempt id send live point free =>
      have eq : s.takeSlot id send = _ := if_neg (by simp [free])
      rw [eq, takenInTime_iff counted live point free]
      exact and_comm
  | endFlight dropped live point => exact (and_iff_left trivial).symm
  | dropSend live point => exact (and_iff_left trivial).symm

theorem counted_flights {t : System} {as : List Action} (h : run step .new as = some t) :
    Counted t ∧ Flights t := by
  apply run_invariant_of_step (I := fun s => Counted s ∧ Flights s) _ _ h
  · intro s a u inv hu
    exact ⟨inv.1.step (actionStep hu), inv.2.step (actionStep hu)⟩
  · exact ⟨Counted.new, Flights.new⟩

theorem step_label {s t : System} {a : Action} (h : ActionStep s a t) {id : ℕ}
    (old : id < s.registered) :
    s.registered ≤ t.registered ∧ (label t id = none ∨ label t id = label s id) := by
  cases h with
  | beginSend key =>
      refine ⟨Nat.le_succ _, Or.inr ?_⟩
      rw [label_beginSend, Function.update_of_ne old.ne]
  | cancel target => exact ⟨Nat.le_refl _, Or.inr rfl⟩
  | move live other act => exact ⟨Nat.le_refl _, Or.inr (congrFun (label_move live _) id)⟩
  | busy live busy => exact ⟨Nat.le_refl _, Or.inr (congrFun (label_move live _) id)⟩
  | @attempt id' send live point free =>
      have eq : s.takeSlot id' send = _ := if_neg (by simp [free])
      rw [eq]
      exact ⟨Nat.le_refl _, Or.inr (congrFun (label_move live .attempting) id)⟩
  | endFlight dropped live point =>
      exact ⟨Nat.le_refl _, Or.inr (congrFun (label_move live _) id)⟩
  | @dropSend id' send live point =>
      refine ⟨Nat.le_refl _, ?_⟩
      have labels : label (s.dropSend id' send) = Function.update (label s) id' none :=
        label_update s id' none
      rw [labels]
      by_cases eq : id = id'
      · exact Or.inl (by rw [eq, Function.update_self])
      · exact Or.inr (by rw [Function.update_of_ne eq])

theorem run_label {s t : System} {as : List Action} (h : run step s as = some t) {id : ℕ}
    (old : id < s.registered) : label t id = none ∨ label t id = label s id := by
  induction as generalizing s with
  | nil =>
      cases h
      exact Or.inr rfl
  | cons a as ih =>
      obtain ⟨u, hu, ht⟩ := run_cons.mp h
      obtain ⟨le, first⟩ := step_label (actionStep hu) old
      rcases ih ht (by omega) with gone | same
      · exact Or.inl gone
      · rw [same]
        exact first

/-- A slot that outlives a step does not get an older generation. -/
theorem step_generation {s t : System} {a : Action} (counted : Counted s) (h : ActionStep s a t)
    {key : SlotKey} {newest newest' waiting waiting' : ℕ}
    (before : tally s.slots key = some (newest, waiting))
    (after : tally t.slots key = some (newest', waiting')) : newest ≤ newest' := by
  have unchanged (same : tally t.slots = tally s.slots) : newest ≤ newest' := by
    rw [same, before] at after
    cases after
    exact Nat.le_refl _
  cases h with
  | beginSend key' =>
      change tally (s.slots.register key') key = _ at after
      rw [tally_register, Function.update_apply] at after
      split_ifs at after with eq
      · cases after
        subst eq
        rw [(entry_of_tally before).1]
        omega
      · rw [before] at after
        cases after
        exact Nat.le_refl _
  | cancel target =>
      change tally (s.slots.cancelWhere target) key = _ at after
      rw [tally_cancelWhere, before, Option.map_some] at after
      cases after
      split_ifs
      · omega
      · exact Nat.le_refl _
  | move live other act => exact unchanged rfl
  | busy live busy => exact unchanged rfl
  | @attempt id send live point free =>
      obtain ⟨slot, present, -, -⟩ := counted.slot live
      have eq : (s.takeSlot id send).slots = s.slots.take send.key := by
        simp [System.takeSlot, free]
      exact unchanged (by rw [eq, tally_take present])
  | endFlight dropped live point =>
      obtain ⟨slot, present, -, used⟩ := counted.slot live
      exact unchanged (tally_endFlight present used)
  | @dropSend id send live point =>
      obtain ⟨slot, present, -, -⟩ := counted.slot live
      have tallies : tally (s.dropSend id send).slots = _ := tally_dropSend present
      rw [tallies, Function.update_apply] at after
      split_ifs at after with eq unused
      · cases after
        subst eq
        have own := tally_of_present present
        cases before.symm.trans own
        exact Nat.le_refl _
      · rw [before] at after
        cases after
        exact Nat.le_refl _

/-- While a send is alive its slot's generation only grows. -/
theorem run_generation {s t : System} {as : List Action} (counted : Counted s)
    (h : run step s as = some t) {id : ℕ} {key : SlotKey}
    {generation newest newest' waiting waiting' : ℕ}
    (alive : label t id = some (key, generation)) (old : id < s.registered)
    (before : tally s.slots key = some (newest, waiting))
    (after : tally t.slots key = some (newest', waiting')) : newest ≤ newest' := by
  induction as generalizing s newest waiting with
  | nil =>
      cases h
      cases before.symm.trans after
      exact Nat.le_refl _
  | cons a as ih =>
      obtain ⟨u, hu, ht⟩ := run_cons.mp h
      have first := actionStep hu
      have counted_u : Counted u := counted.step first
      obtain ⟨le, -⟩ := step_label first old
      have alive_u : label u id = some (key, generation) := by
        rcases run_label ht (show id < u.registered by omega) with gone | same
        · cases gone.symm.trans alive
        · rw [← same, alive]
      obtain ⟨middle, waiting'', between, -⟩ := counted_u.present id key generation alive_u
      have grows := step_generation counted first before between
      have grows' := ih counted_u ht (by omega) between
      omega

theorem generations_kept {s t : System} {as : List Action} (counted : Counted s)
    (counted' : Counted t) (h : run step s as = some t) : GenerationsKept s t := by
  intro id send send' live live'
  have own := label_of_live live
  have own' := label_of_live live'
  have old := counted.registered id send.key send.generation own
  have same : label t id = label s id := by
    rcases run_label h old with gone | same
    · cases gone.symm.trans own'
    · exact same
  have key_eq : send.key = send'.key := by
    rw [own, own'] at same
    exact (congrArg Prod.fst (Option.some.inj same)).symm
  obtain ⟨slot, present, -, -⟩ := counted.slot live
  obtain ⟨slot', present', -, -⟩ := counted'.slot live'
  rw [← key_eq] at present'
  refine ⟨slot, slot', present, present', ?_⟩
  exact run_generation counted h (same.trans own) old (tally_of_present present)
    (tally_of_present present')

theorem Ownership.of_invariants {s : System} (counted : Counted s) (flights : Flights s)
    (orderly : Orderly s.events) : Ownership s := by
  constructor
  · exact flights.exclusive
  · intro id send live
    obtain ⟨slot, present, le, -⟩ := counted.slot live
    exact ⟨slot, present, le⟩
  · intro id id' send send' slot live live' same present eq eq'
    have own := label_of_live live
    have own' := label_of_live live'
    rw [← same, eq', ← eq] at own'
    exact counted.distinct id id' send.key send.generation own own'
  · exact orderly

/-- The slot table keeps its promises in a run of any sends exactly if each claim that
finds its slot free was made in time. -/
theorem ownership_iff_takenInTime (as bs : List Action) {s t : System}
    (before : run step .new as = some s) (after : run step s bs = some t) :
    (Ownership t ∧ GenerationsKept s t) ↔ Admissible step TakenInTime .new (as ++ bs) := by
  have whole := run_append before after
  obtain ⟨counted, -⟩ := counted_flights before
  obtain ⟨counted', flights'⟩ := counted_flights whole
  have orderly : Orderly t.events ↔
      Orderly System.new.events ∧ Admissible step TakenInTime .new (as ++ bs) := by
    apply run_iff_admissible (I := Counted) (P := fun s => Orderly s.events) _ _ Counted.new whole
    · intro s a u inv hu
      exact inv.step (actionStep hu)
    · intro s a u inv hu
      exact step_orderly_iff inv (actionStep hu)
  constructor
  · intro holds
    exact (orderly.mp holds.1.orderly).2
  · intro adm
    constructor
    · exact .of_invariants counted' flights' (orderly.mpr ⟨trivial, adm⟩)
    · exact generations_kept counted counted' after

/-- Two memberships of a scope, the older one's claim over before the newer begins. -/
theorem ownership_of_two_sends : ∃ s t : System,
    run step .new [.beginSend ⟨"room", .membership⟩, .check 0, .take 0] = some s ∧
    run step s [.beginSend ⟨"room", .membership⟩, .endFlight 0 false, .check 1, .take 1] = some t ∧
    Ownership t ∧ GenerationsKept s t := by
  refine ⟨_, _, rfl, rfl, ?_⟩
  exact (ownership_iff_takenInTime
    [.beginSend ⟨"room", .membership⟩, .check 0, .take 0]
    [.beginSend ⟨"room", .membership⟩, .endFlight 0 false, .check 1, .take 1] rfl rfl).mpr
    (by decide)

/-- A newer send begins between an older one's look and its claim of the free slot: the
older one still starts its attempt. -/
theorem not_always_ownership : ¬ ∀ (as bs : List Action) (s t : System),
    run step .new as = some s → run step s bs = some t → Ownership t ∧ GenerationsKept s t := by
  intro always
  have broken := always
    [.beginSend ⟨"room", .membership⟩, .check 0, .beginSend ⟨"room", .membership⟩, .take 0] []
    _ _ rfl rfl
  have orderly := broken.1.orderly
  revert orderly
  decide

end MatrixRtc.SlotOwnership

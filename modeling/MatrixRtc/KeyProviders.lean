import MatrixRtc.MediaKeyHandlers
import MatrixRtc.StepRuns
import MatrixRtc.Tables

/-!
# One key provider a connection

Each SFU connection of a call has a key provider of its own, made with every key installed so
far and given every key installed while it lives. The provider itself is the frame cryptor
library's: it keeps a ring of 255 keys for each identity, and ends the process when it is given
an index past the ring. The key handler in front of it lets none through. Taken together, the
providers are one ring.
-/
namespace MatrixRtc.KeyProviders
open MediaKeyHandlers StepRuns Tables

/-- `NATIVE_KEY_RING_MAX`. -/
def nativeKeyRingMax : ℕ := 255

/-- The library's key provider. `setKey` says whether the key was taken, and is `none` where
it ends the process. -/
structure Native (P : Type) where
  new : P
  setKey : P → String → UInt8 → List UInt8 → Option (P × Bool)
  getKey : P → String → UInt8 → Option (List UInt8)

/-- What the library promises of it: a new provider is empty, an index within the ring is
survived, and a key that is taken is there and moves no other. -/
structure Native.Documented {P : Type} (native : Native P) : Prop where
  fresh : ∀ identity index, native.getKey native.new identity index = none
  survives : ∀ p identity index key, index.toNat < nativeKeyRingMax →
    ∃ q taken, native.setKey p identity index key = some (q, taken)
  stores : ∀ p q identity index key, native.setKey p identity index key = some (q, true) →
    native.getKey q identity index = some key ∧
      ∀ i n, (i, n) ≠ (identity, index) → native.getKey q i n = native.getKey p i n

/-- `Providers`, of which `refused` remembers whether one has refused a key. -/
structure Providers (P : Type) where
  nextId : ℕ
  live : List (ℕ × P)
  keys : Table String (Table UInt8 (List UInt8))
  refused : Bool

/-- The handler over the providers of a call. `hooked` has what our sender was moved onto. -/
structure System (P : Type) where
  providers : Providers P
  recorded : Table String ParticipantKey
  localSender : Option String
  hooked : List (String × UInt8)

inductive Action where
  /-- A connection takes its provider. -/
  | connectionProvider
  | drop (id : ℕ)
  /-- A signalled key is applied, at once or when its delay is over. -/
  | apply (key : ParticipantKey)
  | setLocalSender (identity : String)

def start (P : Type) : System P := ⟨⟨0, [], ∅, false⟩, ∅, none, []⟩

/-- The keys in the order of two nested loops. -/
def flat (keys : Table String (Table UInt8 (List UInt8))) : List (String × UInt8 × List UInt8) :=
  keys.entries.flatMap fun ring => ring.2.entries.map fun key => (ring.1, key.1, key.2)

/-- `entry(identity).or_default().insert(index, key)`. -/
def record (keys : Table String (Table UInt8 (List UInt8))) (identity : String) (index : UInt8)
    (key : List UInt8) : Table String (Table UInt8 (List UInt8)) :=
  keys.insert identity (((keys.lookup identity).getD ∅).insert index key)

section
variable {P : Type} (native : Native P)

/-- A provider given keys one after another, and whether it took them all. -/
def replay : List (String × UInt8 × List UInt8) → P → Option (P × Bool)
  | [], p => some (p, true)
  | (identity, index, key) :: rest, p => do
      let (p, taken) ← native.setKey p identity index key
      let (p, all) ← replay rest p
      return (p, taken && all)

/-- Every live provider given one key, and whether they all took it. -/
def setAll (identity : String) (index : UInt8) (key : List UInt8) :
    List (ℕ × P) → Option (List (ℕ × P) × Bool)
  | [] => some ([], true)
  | (id, p) :: rest => do
      let (p, taken) ← native.setKey p identity index key
      let (rest, all) ← setAll identity index key rest
      return ((id, p) :: rest, taken && all)

/-- `connection_provider`: what the provider says of the keys it starts with is not asked. -/
def Providers.connectionProvider (s : Providers P) : Option (Providers P) :=
  (replay native (flat s.keys) native.new).map fun made =>
    { s with
      nextId := s.nextId + 1
      live := s.live ++ [(s.nextId, made.1)]
      refused := s.refused || !made.2 }

/-- `Msc4195KeyProviders::set_key`. -/
def Providers.setKey (s : Providers P) (identity : String) (index : UInt8) (key : List UInt8) :
    Option (Providers P × Bool) :=
  (setAll native identity index key s.live).map fun given =>
    ({ s with
        live := given.1
        keys := record s.keys identity index key
        refused := s.refused || !given.2 }, given.2)

/-- `Drop` of a connection's provider. -/
def Providers.drop (s : Providers P) (id : ℕ) : Providers P :=
  { s with live := s.live.filter fun entry => entry.1 != id }

/-- `MediaKeyHandler::apply` over the providers: an index past the ring never reaches them, a
rejected key is recorded all the same, and our sender follows only a key of ours that all took. -/
def System.apply (s : System P) (key : ParticipantKey) : Option (System P) :=
  let within := key.keyIndex.toNat < nativeKeyRingMax
  let given := if within then
      s.providers.setKey native key.rtcBackendIdentity key.keyIndex key.key
    else some (s.providers, false)
  given.map fun (providers, taken) =>
    { s with
      providers := providers
      recorded := s.recorded.insert key.rtcBackendIdentity key
      hooked :=
        if taken && s.localSender == some key.rtcBackendIdentity then
          (key.rtcBackendIdentity, key.keyIndex) :: s.hooked
        else s.hooked }

/-- One step, or `none` where it ends the process. -/
def step (s : System P) : Action → Option (System P)
  | .connectionProvider =>
      (s.providers.connectionProvider native).map fun providers => { s with providers := providers }
  | .drop id => some { s with providers := s.providers.drop id }
  | .apply key => s.apply native key
  | .setLocalSender identity => some { s with localSender := some identity }

end

/-- What is under an identity and an index. -/
abbrev Ring := String → UInt8 → Option (List UInt8)

/-- A ring after one action: only a key within it is installed, and nothing is taken out. -/
def Ring.after (ring : Ring) : Action → Ring
  | .apply key =>
      if key.keyIndex.toNat < nativeKeyRingMax then
        fun i n => if (i, n) = (key.rtcBackendIdentity, key.keyIndex) then some key.key else ring i n
      else ring
  | .connectionProvider | .drop _ | .setLocalSender _ => ring

/-- The ring of a call after its actions, in order. -/
def ringAfter (as : List Action) : Ring := as.foldl Ring.after fun _ _ => none

/-- The keys as they are recorded. -/
def keyOf (keys : Table String (Table UInt8 (List UInt8))) : Ring := fun identity index =>
  (keys.lookup identity).bind (·.lookup index)

section
variable {keys : Table String (Table UInt8 (List UInt8))}

theorem keyOf_record (identity : String) (index : UInt8) (key : List UInt8) (i : String)
    (n : UInt8) :
    keyOf (record keys identity index key) i n =
      if (i, n) = (identity, index) then some key else keyOf keys i n := by
  unfold keyOf record
  by_cases same : i = identity
  · subst same
    rw [AList.lookup_insert, Option.bind_some]
    by_cases there : n = index
    · subst there
      rw [AList.lookup_insert, if_pos rfl]
    · rw [AList.lookup_insert_ne there, if_neg (by simp [there])]
      cases keys.lookup i with
      | none => rfl
      | some ring => rfl
  · rw [AList.lookup_insert_ne same, if_neg (by simp [same])]

theorem mem_flat {i : String} {n : UInt8} {k : List UInt8} :
    (i, n, k) ∈ flat keys ↔ keyOf keys i n = some k := by
  rw [flat, List.mem_flatMap, keyOf, Option.bind_eq_some_iff]
  constructor
  · rintro ⟨⟨identity, ring⟩, there, is⟩
    obtain ⟨⟨index, key⟩, within, same⟩ := List.mem_map.mp is
    cases same
    exact ⟨ring, lookup_eq_some_iff.mpr there, lookup_eq_some_iff.mpr within⟩
  · rintro ⟨ring, there, within⟩
    exact ⟨⟨i, ring⟩, lookup_eq_some_iff.mp there,
      List.mem_map.mpr ⟨⟨n, k⟩, lookup_eq_some_iff.mp within, rfl⟩⟩

theorem flat_once : (flat keys).Pairwise fun a b => (a.1, a.2.1) ≠ (b.1, b.2.1) := by
  rw [flat, List.pairwise_flatMap]
  constructor
  · intro ring _
    rw [List.pairwise_map]
    have once := ring.2.nodupKeys
    rw [List.NodupKeys, List.keys, List.Nodup, List.pairwise_map] at once
    exact once.imp fun other same => other (Prod.mk.inj same).2
  · have once := keys.nodupKeys
    rw [List.NodupKeys, List.keys, List.Nodup, List.pairwise_map] at once
    refine once.imp fun {a b} other => ?_
    intro x in_a y in_b same
    obtain ⟨_, -, rfl⟩ := List.mem_map.mp in_a
    obtain ⟨_, -, rfl⟩ := List.mem_map.mp in_b
    exact other (Prod.mk.inj same).1

end

section
variable {P : Type} {native : Native P} (doc : native.Documented)
include doc

/-- Keys within the ring, one for each place, are all there once they were taken, and no other
place has moved. -/
theorem replay_spec {keys : List (String × UInt8 × List UInt8)} (p : P)
    (within : ∀ key ∈ keys, key.2.1.toNat < nativeKeyRingMax)
    (once : keys.Pairwise fun a b => (a.1, a.2.1) ≠ (b.1, b.2.1)) :
    ∃ q all, replay native keys p = some (q, all) ∧ (all = true →
      (∀ i n k, (i, n, k) ∈ keys → native.getKey q i n = some k) ∧
        ∀ i n, (∀ k, (i, n, k) ∉ keys) → native.getKey q i n = native.getKey p i n) := by
  induction keys generalizing p with
  | nil => exact ⟨p, true, rfl, fun _ => ⟨fun _ _ _ there => (by cases there), fun _ _ _ => rfl⟩⟩
  | cons first rest ih =>
      obtain ⟨identity, index, key⟩ := first
      rw [List.pairwise_cons] at once
      obtain ⟨p', taken, set⟩ := doc.survives p identity index key
        (within (identity, index, key) List.mem_cons_self)
      obtain ⟨q, all, made, holds⟩ := ih p'
        (fun key there => within key (List.mem_cons_of_mem _ there)) once.2
      refine ⟨q, taken && all, ?_, fun both => ?_⟩
      · simp only [replay, set, made, Option.bind_eq_bind, Option.bind_some, Option.pure_def]
      · rw [Bool.and_eq_true] at both
        obtain ⟨rfl, rfl⟩ := both
        obtain ⟨stored, moved⟩ := doc.stores p p' identity index key set
        obtain ⟨held, same⟩ := holds rfl
        -- The place of the first key is no later key's, so its value stays.
        have kept : native.getKey q identity index = some key := by
          refine (same identity index fun k there => ?_).trans stored
          exact once.1 (identity, index, k) there rfl
        constructor
        · intro i n k there
          rcases List.mem_cons.mp there with is | there
          · cases is
            exact kept
          · exact held i n k there
        · intro i n absent
          have other : (i, n) ≠ (identity, index) := by
            intro is
            cases is
            exact absent key List.mem_cons_self
          rw [same i n fun k there => absent k (List.mem_cons_of_mem _ there), moved i n other]

/-- A key within the ring is given to every live provider, and is where all took it. -/
theorem setAll_spec (identity : String) (index : UInt8) (key : List UInt8)
    (within : index.toNat < nativeKeyRingMax) (live : List (ℕ × P)) :
    ∃ given all, setAll native identity index key live = some (given, all) ∧
      given.map Prod.fst = live.map Prod.fst ∧ (all = true →
        ∀ id q, (id, q) ∈ given → ∃ p, (id, p) ∈ live ∧
          native.getKey q identity index = some key ∧
            ∀ i n, (i, n) ≠ (identity, index) → native.getKey q i n = native.getKey p i n) := by
  induction live with
  | nil => exact ⟨[], true, rfl, rfl, fun _ _ _ there => (by cases there)⟩
  | cons entry rest ih =>
      obtain ⟨id, p⟩ := entry
      obtain ⟨p', taken, set⟩ := doc.survives p identity index key within
      obtain ⟨given, all, made, ids, holds⟩ := ih
      refine ⟨(id, p') :: given, taken && all, ?_, ?_, fun both => ?_⟩
      · simp only [setAll, set, made, Option.bind_eq_bind, Option.bind_some, Option.pure_def]
      · rw [List.map_cons, List.map_cons, ids]
      · rw [Bool.and_eq_true] at both
        obtain ⟨rfl, rfl⟩ := both
        obtain ⟨stored, moved⟩ := doc.stores p p' identity index key set
        intro other q there
        rcases List.mem_cons.mp there with is | there
        · cases is
          exact ⟨p, List.mem_cons_self, stored, moved⟩
        · obtain ⟨older, was_there, same⟩ := holds rfl other q there
          exact ⟨older, List.mem_cons_of_mem _ was_there, same⟩

end

/-- The providers are the one ring, as long as none of them has refused a key. -/
structure Synced {P : Type} (native : Native P) (s : System P) (ring : Ring) : Prop where
  within : ∀ i n k, ring i n = some k → n.toNat < nativeKeyRingMax
  recorded : keyOf s.providers.keys = ring
  held : s.providers.refused = false → ∀ id p, (id, p) ∈ s.providers.live →
    ∀ i n, native.getKey p i n = ring i n
  numbered : ∀ id ∈ s.providers.live.map Prod.fst, id < s.providers.nextId
  once : (s.providers.live.map Prod.fst).Nodup
  hooked : ∀ i n, (i, n) ∈ s.hooked → (ring i n).isSome

section
variable {P : Type} {native : Native P} {s : System P} {ring : Ring}

theorem synced_start : Synced native (start P) fun _ _ => none where
  within _ _ _ is := by cases is
  recorded := rfl
  held _ _ _ there := by cases there
  numbered _ there := by cases there
  once := List.nodup_nil
  hooked _ _ there := by cases there

/-- A provider is made holding all that was installed. -/
theorem Synced.connectionProvider (doc : native.Documented) (k : Synced native s ring) :
    ∃ providers, s.providers.connectionProvider native = some providers ∧
      Synced native { s with providers := providers } ring := by
  have within : ∀ key ∈ flat s.providers.keys, key.2.1.toNat < nativeKeyRingMax := by
    rintro ⟨i, n, key⟩ there
    have is := mem_flat.mp there
    rw [k.recorded] at is
    exact k.within i n key is
  obtain ⟨q, all, made, holds⟩ := replay_spec doc native.new within flat_once
  refine ⟨_, by rw [Providers.connectionProvider, made, Option.map_some], ?_⟩
  exact
    { within := k.within
      recorded := k.recorded
      held := fun unrefused id p there i n => by
        rw [Bool.or_eq_false_iff, Bool.not_eq_false'] at unrefused
        rcases List.mem_append.mp there with old | new
        · exact k.held unrefused.1 id p old i n
        · rw [List.mem_singleton] at new
          cases new
          obtain ⟨held, same⟩ := holds unrefused.2
          cases is : ring i n with
          | some key => exact held i n key (mem_flat.mpr (by rw [k.recorded, is]))
          | none =>
              rw [same i n, doc.fresh]
              intro key there
              have held := mem_flat.mp there
              rw [k.recorded, is] at held
              cases held
      numbered := fun id there => by
        rw [List.map_append, List.mem_append] at there
        rcases there with old | new
        · exact Nat.lt_succ_of_lt (k.numbered id old)
        · rw [List.map_cons, List.map_nil, List.mem_singleton] at new
          exact new ▸ Nat.lt_succ_self _
      once := by
        rw [List.map_append, List.map_cons, List.map_nil]
        refine k.once.append (List.nodup_singleton _) ?_
        intro id old new
        rw [List.mem_singleton] at new
        have before := k.numbered id old
        omega
      hooked := k.hooked }

theorem Synced.drop (k : Synced native s ring) (id : ℕ) :
    Synced native { s with providers := s.providers.drop id } ring where
  within := k.within
  recorded := k.recorded
  held unrefused other p there := k.held unrefused other p (List.mem_of_mem_filter there)
  numbered other there := by
    obtain ⟨entry, kept, rfl⟩ := List.mem_map.mp there
    exact k.numbered _ (List.mem_map_of_mem (List.mem_of_mem_filter kept))
  once := k.once.sublist (List.filter_sublist.map _)
  hooked := k.hooked

/-- A key is installed in all of them, or kept from all of them. -/
theorem Synced.apply (doc : native.Documented) (k : Synced native s ring) (key : ParticipantKey) :
    ∃ t, s.apply native key = some t ∧ Synced native t (ring.after (.apply key)) := by
  unfold System.apply Ring.after
  dsimp only
  by_cases fits : key.keyIndex.toNat < nativeKeyRingMax
  · obtain ⟨given, all, made, ids, holds⟩ :=
      setAll_spec doc key.rtcBackendIdentity key.keyIndex key.key fits s.providers.live
    refine ⟨_, by rw [if_pos fits, Providers.setKey, made, Option.map_some, Option.map_some], ?_⟩
    rw [if_pos fits]
    exact
      { within := fun i n value is => by
          split_ifs at is with there
          · cases there
            exact fits
          · exact k.within i n value is
        recorded := by
          funext i n
          rw [keyOf_record, k.recorded]
        held := fun unrefused id q there i n => by
          rw [Bool.or_eq_false_iff, Bool.not_eq_false'] at unrefused
          obtain ⟨p, was_there, stored, moved⟩ := holds unrefused.2 id q there
          split_ifs with is
          · cases is
            exact stored
          · rw [moved i n is]
            exact k.held unrefused.1 id p was_there i n
        numbered := fun id there => k.numbered id (ids ▸ there)
        once := by
          dsimp only
          rw [ids]
          exact k.once
        hooked := fun i n there => by
          dsimp only at there
          split_ifs with is
          · rfl
          · split_ifs at there
            · rcases List.mem_cons.mp there with new | old
              · exact absurd new is
              · exact k.hooked i n old
            · exact k.hooked i n there }
  · refine ⟨_, by rw [if_neg fits, Option.map_some], ?_⟩
    rw [if_neg fits]
    exact
      { within := k.within
        recorded := k.recorded
        held := k.held
        numbered := k.numbered
        once := k.once
        hooked := k.hooked }

theorem synced_step (doc : native.Documented) (k : Synced native s ring) (a : Action) :
    ∃ t, step native s a = some t ∧ Synced native t (ring.after a) := by
  cases a with
  | connectionProvider =>
      obtain ⟨providers, made, synced⟩ := k.connectionProvider doc
      exact ⟨_, by rw [step, made, Option.map_some], synced⟩
  | drop id => exact ⟨_, rfl, k.drop id⟩
  | apply key => exact k.apply doc key
  | setLocalSender identity =>
      exact ⟨_, rfl, ⟨k.within, k.recorded, k.held, k.numbered, k.once, k.hooked⟩⟩

theorem synced_run (doc : native.Documented) (k : Synced native s ring) (as : List Action) :
    ∃ t, run (step native) s as = some t ∧ Synced native t (as.foldl Ring.after ring) := by
  induction as generalizing s ring with
  | nil => exact ⟨s, rfl, k⟩
  | cons a as ih =>
      obtain ⟨u, taken, synced⟩ := synced_step doc k a
      obtain ⟨t, rest, held⟩ := ih synced
      exact ⟨t, run_cons.mpr ⟨u, taken, rest⟩, held⟩

end

/-- Whatever keys are signalled, and whenever connections are made and dropped, no index past
the ring ever reaches a provider, so that the process is never ended, and each live provider is
its own. Unless one has refused a key, each holds under every identity and index exactly the last
key applied there, and so a key on every index that the hook moved our sender onto. -/
theorem providers_one_ring {P : Type} (native : Native P) (doc : native.Documented)
    (as : List Action) :
    ∃ t, run (step native) (start P) as = some t ∧ (t.providers.live.map Prod.fst).Nodup ∧
      (t.providers.refused = false → ∀ id p, (id, p) ∈ t.providers.live →
        (∀ i n, native.getKey p i n = ringAfter as i n) ∧
          ∀ i n, (i, n) ∈ t.hooked → (native.getKey p i n).isSome) := by
  obtain ⟨t, h, k⟩ := synced_run doc synced_start as
  refine ⟨t, h, k.once, fun unrefused id p there => ?_⟩
  have held := k.held unrefused id p there
  refine ⟨held, fun i n moved => ?_⟩
  rw [held]
  exact k.hooked i n moved

/-- A provider that keeps what it is given within its ring. -/
def keepingNative : Native Ring where
  new _ _ := none
  setKey p identity index key :=
    if index.toNat < nativeKeyRingMax then
      some (fun i n => if (i, n) = (identity, index) then some key else p i n, true)
    else none
  getKey p := p

theorem keepingNative_documented : keepingNative.Documented where
  fresh _ _ := rfl
  survives p identity index key within := ⟨_, true, if_pos within⟩
  stores p q identity index key set := by
    unfold keepingNative at set ⊢
    dsimp only at set ⊢
    split_ifs at set
    cases set
    exact ⟨if_pos rfl, fun i n other => if_neg other⟩

theorem providers_one_ring_kept :
    ∃ t, run (step keepingNative) (start Ring)
        [.connectionProvider, .setLocalSender "me", .apply ⟨"me", 1, [7]⟩, .apply ⟨"you", 255, [8]⟩,
          .connectionProvider, .drop 0] = some t ∧
      (t.providers.live.map Prod.fst).Nodup := by
  obtain ⟨t, h, once, -⟩ := providers_one_ring keepingNative keepingNative_documented
    [.connectionProvider, .setLocalSender "me", .apply ⟨"me", 1, [7]⟩, .apply ⟨"you", 255, [8]⟩,
      .connectionProvider, .drop 0]
  exact ⟨t, h, once⟩

end MatrixRtc.KeyProviders

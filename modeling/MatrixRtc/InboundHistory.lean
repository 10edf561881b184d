import MatrixRtc.InboundStores
import MatrixRtc.StepRuns
import Mathlib.Order.Nat

/-!
# The inbound store over a whole run

Runs of `receive_key` and of roster changes, each followed by `on_memberships_update`, under a
clock that does not go back; the other half of that update works on our own key and is left
out. Beside the manager a run keeps the messages in receipt order, each with what became of
its verification, and every handling of one message with the manager before and after.

A message whose member id is not listed waits. All that wait under one member id are verified
together, in receipt order, as the id appears, and nothing is accepted under the id before
that; so the order of acceptance is the order of receipt, and no message is outdated.
-/
namespace MatrixRtc.InboundHistory
open MemberEvents EncryptionManagers InboundKeys InboundStores StepRuns

inductive Verdict where
  | failed
  | waiting (key : InboundEncryptionKey)
  | passed (membership : JoinedMembership) (bytes : List UInt8)
deriving DecidableEq

/-- A message that was received, and what became of it. -/
structure Arrival where
  message : ReceivedEncryptionKey
  verdict : Verdict
deriving DecidableEq

/-- One handling of a message, at its receipt or when its member event appeared. -/
structure Handling where
  memberId : String
  keyIndex : UInt8
  verdict : Verdict
  before : EncryptionManager
  after : EncryptionManager
  emitted : List Emission

structure System where
  manager : EncryptionManager
  roster : List JoinedMembership
  now : ℕ := 0
  arrivals : List Arrival := []
  handlings : List Handling := []

inductive Action where
  | receiveKey (message : ReceivedEncryptionKey) (now : ℕ)
  | rosterChanged (roster : List JoinedMembership)

/-- The check of a decoded key against its member event. -/
def judgeAgainst (s : JoinedMembership) (key : InboundEncryptionKey) (origin : KeyOrigin) :
    Verdict :=
  match verifyAgainstMembership origin s with
  | .ok () => .passed s key.key
  | .error _ => .failed

def judge (roster : List JoinedMembership) (key : InboundEncryptionKey) (origin : KeyOrigin) :
    Verdict :=
  match membershipOf roster key.memberId with
  | none => .waiting key
  | some s => judgeAgainst s key origin

section
variable (decode : String → Except String (List UInt8))

/-- The checks made of a message as it is received. -/
def verdictOf (m : EncryptionManager) (roster : List JoinedMembership)
    (message : ReceivedEncryptionKey) (now : ℕ) : Verdict :=
  match verifyOrigin m message, decode message.keyB64 with
  | .ok (), .ok bytes =>
      judge roster ⟨bytes, message.keyIndex, message.memberId, now⟩ message.origin
  | _, _ => .failed

/-- A message that waited is checked once its member event is listed. -/
def settle (roster : List JoinedMembership) (a : Arrival) : Arrival :=
  match a.verdict with
  | .waiting key => { a with verdict := judge roster key a.message.origin }
  | _ => a

/-- The handlings of `check_keys_without_membership`, in order. -/
def drained (roster : List JoinedMembership) :
    EncryptionManager → List PendingInboundKey → List Handling
  | _, [] => []
  | m, pending :: rest =>
      match membershipOf roster pending.key.memberId with
      | some s =>
          let after := acceptVerifiedKey m pending.key pending.origin s
          ⟨pending.key.memberId, pending.key.keyIndex, judgeAgainst s pending.key pending.origin,
            m, after.1, after.2.2⟩ :: drained roster after.1 rest
      | none =>
          drained roster
            { m with keysWithoutMembership := m.keysWithoutMembership ++ [pending] } rest

def step (s : System) : Action → Option System
  | .receiveKey message now =>
      if s.now ≤ now then
        let (m, _, emitted) := receiveKey decode s.manager s.roster message now
        let verdict := verdictOf decode s.manager s.roster message now
        some
          { s with
            manager := m
            now := now
            arrivals := s.arrivals ++ [⟨message, verdict⟩]
            handlings := s.handlings ++
              [⟨message.memberId, message.keyIndex, verdict, s.manager, m, emitted⟩] }
      else none
  | .rosterChanged roster =>
      if s.manager.config.manageMediaKeys then
        some
          { s with
            manager := (checkKeysWithoutMembership s.manager roster).1
            roster := roster
            arrivals := s.arrivals.map (settle roster)
            handlings := s.handlings ++
              drained roster { s.manager with keysWithoutMembership := [] }
                s.manager.keysWithoutMembership }
      else some { s with roster := roster }

def start (setup : Setup) (roster : List JoinedMembership) : System :=
  { manager := .new setup, roster }

end

/-- The bytes a verdict on a message for `own` and `ownIndex` gives this place. -/
def Verdict.bytesFor (own : String) (ownIndex : UInt8) (memberId : String) (index : UInt8) :
    Verdict → Option (List UInt8)
  | .passed _ bytes => if memberId = own ∧ index = ownIndex then some bytes else none
  | _ => none

/-- The bytes of a message for this place, if it passed verification. -/
def passedBytes (memberId : String) (index : UInt8) (a : Arrival) : Option (List UInt8) :=
  a.verdict.bytesFor a.message.memberId a.message.keyIndex memberId index

/-- The last message in receipt order for this place that passed verification. -/
def lastPassed (arrivals : List Arrival) (memberId : String) (index : UInt8) :
    Option (List UInt8) :=
  (arrivals.filterMap (passedBytes memberId index)).getLast?

def Handling.Signals (h : Handling) : Prop :=
  ∃ membership signal, .newKeyMaterial membership signal ∈ h.emitted

def Handling.Changes (h : Handling) : Prop :=
  heldAt h.after.inboundKeys h.memberId h.keyIndex ≠
    heldAt h.before.inboundKeys h.memberId h.keyIndex

/-- An accepted message is signalled exactly where it changes the bytes, a handler is installed
and the member has an identity to signal it under; a message that fails verification leaves
the store and the filter as they are. -/
def Handling.Sound (h : Handling) : Prop :=
  match h.verdict with
  | .passed s _ =>
      h.Signals ↔
        h.Changes ∧ h.before.signalHandler = true ∧ (h.before.peerRtcIdentity s).isSome
  | .failed =>
      h.after.inboundKeys = h.before.inboundKeys ∧ h.after.keyBuffer = h.before.keyBuffer
  | .waiting _ => True

/-- The number after the last colon holds none, so the text before it is the member id. -/
theorem filterKey_memberId {a b : String} {i j : UInt8} (h : filterKey a i = filterKey b j) :
    a = b := by
  have colonless : ∀ n : ℕ, ∀ c ∈ (toString n).toList, c ≠ ':' := by
    rintro n c hc rfl
    rw [Nat.toString_eq_repr, Nat.toList_repr] at hc
    exact absurd (Nat.isDigit_of_mem_toDigits (by decide) (by decide) hc) (by decide)
  have cut : ∀ (text : String) (index : UInt8),
      (filterKey text index).toList.reverse.dropWhile (· != ':') = ':' :: text.toList.reverse := by
    intro text index
    simp only [filterKey, String.toList_append, List.reverse_append]
    rw [List.dropWhile_append_of_pos]
    · rfl
    · intro c hc
      simpa using colonless _ c (List.mem_reverse.mp hc)
  have same : ':' :: a.toList.reverse = ':' :: b.toList.reverse := by
    rw [← cut a i, ← cut b j, h]
  exact String.toList_inj.mp (List.reverse_inj.mp (List.cons.inj same).2)

theorem buffer_cleanup {f : OutdatedKeyFilter} {ts known : ℕ} {place : String}
    (h : (cleanup f ts).buffer place = some known) : f.buffer place = some known :=
  (Option.filter_eq_some_iff.mp h).1

theorem isOutdated_cleanup {f : OutdatedKeyFilter} {memberId : String} {index : UInt8} {ts : ℕ}
    (known : ∀ existing, f.buffer (filterKey memberId index) = some existing → existing ≤ ts) :
    isOutdated (cleanup f ts) memberId index ts = false := by
  cases h : (cleanup f ts).buffer (filterKey memberId index) with
  | none => simp [isOutdated, h]
  | some existing => simpa [isOutdated, h] using known existing (buffer_cleanup h)

theorem buffer_checkAndAdd {f : OutdatedKeyFilter} {memberId : String} {index : UInt8} {ts : ℕ}
    {place : String} {known : ℕ}
    (h : (checkAndAdd (cleanup f ts) memberId index ts).1.buffer place = some known) :
    f.buffer place = some known ∨ place = filterKey memberId index ∧ known = ts := by
  unfold checkAndAdd at h
  split_ifs at h
  · exact .inl (buffer_cleanup h)
  · dsimp only at h
    rw [Function.update_apply] at h
    split_ifs at h with same
    · exact .inr ⟨same, (Option.some.inj h).symm⟩
    · exact .inl (buffer_cleanup h)

/-- What one handling does to the store and the filter, at the time of its key. -/
structure Outcome (h : Handling) (ts : ℕ) : Prop where
  held : ∀ memberId index, heldAt h.after.inboundKeys memberId index =
    (h.verdict.bytesFor h.memberId h.keyIndex memberId index).or
      (heldAt h.before.inboundKeys memberId index)
  distinct : ∀ memberId, ((heldKeys h.before.inboundKeys memberId).map (·.keyIndex)).Nodup →
    ((heldKeys h.after.inboundKeys memberId).map (·.keyIndex)).Nodup
  filter : ∀ place known, h.after.keyBuffer.buffer place = some known →
    h.before.keyBuffer.buffer place = some known ∨
      place = filterKey h.memberId h.keyIndex ∧ known = ts ∧ ∃ s bytes, h.verdict = .passed s bytes
  config : h.after.config = h.before.config
  sound : h.Sound

/-- A handling that changes neither the store nor the filter, of a message that did not pass. -/
theorem Outcome.unchanged {h : Handling} (ts : ℕ)
    (store : h.after.inboundKeys = h.before.inboundKeys)
    (filter : h.after.keyBuffer = h.before.keyBuffer) (config : h.after.config = h.before.config)
    (verdict : ∀ s bytes, h.verdict ≠ .passed s bytes) : Outcome h ts where
  held memberId index := by
    rw [store]
    cases hv : h.verdict with
    | passed s bytes => exact absurd hv (verdict s bytes)
    | failed => rfl
    | waiting key => rfl
  distinct memberId nodup := store ▸ nodup
  filter place known h := .inl (filter ▸ h)
  config := config
  sound := by
    unfold Handling.Sound
    cases hv : h.verdict with
    | passed s bytes => exact absurd hv (verdict s bytes)
    | failed => exact ⟨store, filter⟩
    | waiting key => trivial

theorem signals_acceptedEmissions {m : EncryptionManager} {key : InboundEncryptionKey}
    {origin : KeyOrigin} {s : JoinedMembership} :
    (∃ membership signal, .newKeyMaterial membership signal ∈ acceptedEmissions m key origin s) ↔
      heldAt m.inboundKeys key.memberId key.keyIndex ≠ some key.key ∧
        m.signalHandler = true ∧ (m.peerRtcIdentity s).isSome := by
  unfold acceptedEmissions
  split_ifs with same
  · simp [same]
  · simp only [inboundSignal, ne_eq, same, not_false_eq_true, true_and]
    cases m.signalHandler <;> cases m.peerRtcIdentity s <;> simp

/-- `accept_verified_key` where nothing newer is known of the key's place. -/
theorem acceptVerifiedKey_outcome {m : EncryptionManager} {key : InboundEncryptionKey}
    (origin : KeyOrigin) (s : JoinedMembership)
    (known : ∀ existing, m.keyBuffer.buffer (filterKey key.memberId key.keyIndex) =
      some existing → existing ≤ key.creationTs) :
    Outcome ⟨key.memberId, key.keyIndex, judgeAgainst s key origin, m,
      (acceptVerifiedKey m key origin s).1, (acceptVerifiedKey m key origin s).2.2⟩
      key.creationTs := by
  unfold judgeAgainst
  cases hv : verifyAgainstMembership origin s with
  | error reason =>
      have same : (acceptVerifiedKey m key origin s).1 = m := by
        rw [acceptVerifiedKey, hv]
      exact .unchanged _ (congrArg _ same) (congrArg _ same) (congrArg _ same)
        fun _ _ passed => by cases passed
  | ok _ =>
      rw [acceptVerifiedKey_eq hv (isOutdated_cleanup known)]
      refine ⟨fun memberId index => ?_, fun memberId => stored_nodup memberId,
        fun place found h => ?_, rfl, ?_⟩
      · simp only [heldAt_stored, Verdict.bytesFor]
        split_ifs <;> rfl
      · exact (buffer_checkAndAdd h).imp_right fun added =>
          ⟨added.1, added.2, s, key.key, rfl⟩
      · simp only [Handling.Sound, Handling.Signals, Handling.Changes, signals_acceptedEmissions,
          heldAt_stored, and_self, if_true, ne_eq, eq_comm (a := some key.key)]

theorem acceptVerifiedKey_pending (m : EncryptionManager) (key : InboundEncryptionKey)
    (origin : KeyOrigin) (s : JoinedMembership) :
    (acceptVerifiedKey m key origin s).1.keysWithoutMembership = m.keysWithoutMembership := by
  rcases acceptVerifiedKey_spec m key origin s with ⟨-, same, -, -⟩ | ⟨-, _, same, -⟩ |
    ⟨-, _, -, same, -⟩
  all_goals rw [same]

section Drain
variable {roster : List JoinedMembership}

/-- The member event of a waiting message is listed. -/
def Listed (roster : List JoinedMembership) (p : PendingInboundKey) : Prop :=
  (membershipOf roster p.key.memberId).isSome

instance : DecidablePred (Listed roster) := fun p =>
  inferInstanceAs (Decidable ((membershipOf roster p.key.memberId).isSome = true))

/-- The bytes a waiting message gives a place when it is checked. -/
def pendingBytes (roster : List JoinedMembership) (memberId : String) (index : UInt8)
    (p : PendingInboundKey) : Option (List UInt8) :=
  (judge roster p.key p.origin).bytesFor p.key.memberId p.key.keyIndex memberId index

/-- Nothing the filter knows of the member ids that wait is newer than what waits. -/
def Current (f : OutdatedKeyFilter) (waiting : List PendingInboundKey) : Prop :=
  ∀ p ∈ waiting, ∀ index existing,
    f.buffer (filterKey p.key.memberId index) = some existing → existing ≤ p.key.creationTs

/-- The waiting messages are in the order they were received in. -/
def InOrder (waiting : List PendingInboundKey) : Prop :=
  waiting.Pairwise fun p q => p.key.creationTs ≤ q.key.creationTs

/-- What draining `waiting` does to a manager. -/
structure Drains (roster : List JoinedMembership) (m : EncryptionManager)
    (waiting : List PendingInboundKey) (m' : EncryptionManager) : Prop where
  held : ∀ memberId index, heldAt m'.inboundKeys memberId index =
    ((waiting.filterMap (pendingBytes roster memberId index)).getLast?).or
      (heldAt m.inboundKeys memberId index)
  distinct : ∀ memberId, ((heldKeys m.inboundKeys memberId).map (·.keyIndex)).Nodup →
    ((heldKeys m'.inboundKeys memberId).map (·.keyIndex)).Nodup
  filter : ∀ place known, m'.keyBuffer.buffer place = some known →
    m.keyBuffer.buffer place = some known ∨ ∃ p ∈ waiting, Listed roster p ∧
      place = filterKey p.key.memberId p.key.keyIndex ∧ known = p.key.creationTs
  pending : m'.keysWithoutMembership =
    m.keysWithoutMembership ++ waiting.filter fun p => ¬ Listed roster p
  config : m'.config = m.config
  sound : ∀ h ∈ drained roster m waiting, h.Sound

theorem checkPending_drains {waiting : List PendingInboundKey} (m : EncryptionManager)
    (current : Current m.keyBuffer waiting) (ordered : InOrder waiting) :
    Drains roster m waiting (checkPending roster m waiting).1 := by
  induction waiting generalizing m with
  | nil =>
      refine ⟨fun _ _ => rfl, fun _ nodup => nodup, fun _ _ h => .inl h, ?_, rfl, ?_⟩
      · rw [checkPending, List.filter_nil, List.append_nil]
      · intro h hh
        rw [drained] at hh
        exact absurd hh List.not_mem_nil
  | cons p rest ih =>
      have restCurrent : Current m.keyBuffer rest :=
        fun q hq => current q (List.mem_cons_of_mem _ hq)
      obtain ⟨older, restOrdered⟩ := List.pairwise_cons.mp ordered
      cases listed : membershipOf roster p.key.memberId with
      | none =>
          have waits : ¬ Listed roster p := by simp [Listed, listed]
          have nothing : ∀ memberId index, pendingBytes roster memberId index p = none := by
            intro memberId index
            rw [pendingBytes, judge, listed]
            rfl
          have later := ih { m with keysWithoutMembership := m.keysWithoutMembership ++ [p] }
            restCurrent restOrdered
          rw [checkPending, listed]
          refine ⟨fun memberId index => ?_, later.distinct, fun place known h => ?_, ?_,
            later.config, ?_⟩
          · rw [later.held, List.filterMap_cons_none (nothing memberId index)]
          · refine (later.filter place known h).imp_right fun ⟨q, hq, rest⟩ => ?_
            exact ⟨q, List.mem_cons_of_mem _ hq, rest⟩
          · rw [later.pending, List.filter_cons_of_pos (by simpa using waits), List.append_assoc]
            rfl
          · rw [drained, listed]
            exact later.sound
      | some s =>
          have now : Listed roster p := by simp [Listed, listed]
          have one := acceptVerifiedKey_outcome p.origin s
            fun existing => current p List.mem_cons_self p.key.keyIndex existing
          have judged : judge roster p.key p.origin = judgeAgainst s p.key p.origin := by
            rw [judge, listed]
          have later := ih (acceptVerifiedKey m p.key p.origin s).1
            (fun q hq index existing h => by
              rcases one.filter _ _ h with old | ⟨-, rfl, -⟩
              · exact restCurrent q hq index existing old
              · exact older q hq)
            restOrdered
          rw [checkPending, listed]
          refine ⟨fun memberId index => ?_, fun memberId nodup => ?_, fun place known h => ?_, ?_,
            later.config.trans one.config, ?_⟩
          · rw [later.held, one.held memberId index, ← judged]
            change _ = (List.getLast? (List.filterMap _ ([p] ++ rest))).or _
            rw [List.filterMap_append, List.getLast?_append, Option.or_assoc]
            congr 2
            rw [← pendingBytes]
            cases found : pendingBytes roster memberId index p with
            | none => rw [List.filterMap_cons_none found]; rfl
            | some bytes => rw [List.filterMap_cons_some found]; rfl
          · exact later.distinct memberId (one.distinct memberId nodup)
          · rcases later.filter place known h with old | ⟨q, hq, rest⟩
            · refine (one.filter place known old).imp_right fun ⟨at_place, at_ts, _⟩ => ?_
              exact ⟨p, List.mem_cons_self, now, at_place, at_ts⟩
            · exact .inr ⟨q, List.mem_cons_of_mem _ hq, rest⟩
          · rw [later.pending, acceptVerifiedKey_pending,
              List.filter_cons_of_neg (by simpa using now)]
          · rw [drained, listed]
            exact List.forall_mem_cons.mpr ⟨one.sound, later.sound⟩

end Drain

/-- The waiting message of an arrival. -/
def waitingKey (a : Arrival) : Option PendingInboundKey :=
  match a.verdict with
  | .waiting key => some ⟨key, a.message.origin⟩
  | _ => none

def Arrival.Passed (a : Arrival) : Prop := ∃ s bytes, a.verdict = .passed s bytes

/-- A message that waits carries the member id and the index it names. -/
def Arrival.Named (a : Arrival) : Prop :=
  ∀ p ∈ waitingKey a, p.key.memberId = a.message.memberId ∧ p.key.keyIndex = a.message.keyIndex

/-- What holds between roster and waiting messages where media keys are managed: nothing that
waits is listed or older than what the filter knows, and nothing received after it has been
accepted under its member id. -/
structure Managed (s : System) : Prop where
  absent : ∀ p ∈ s.manager.keysWithoutMembership, ¬ Listed s.roster p
  current : Current s.manager.keyBuffer s.manager.keysWithoutMembership
  last : s.arrivals.Pairwise fun a b =>
    (waitingKey a).isSome → b.message.memberId = a.message.memberId → ¬ b.Passed

structure Inv (s : System) : Prop where
  distinct : ∀ memberId, ((heldKeys s.manager.inboundKeys memberId).map (·.keyIndex)).Nodup
  held : ∀ memberId index,
    heldAt s.manager.inboundKeys memberId index = lastPassed s.arrivals memberId index
  sound : ∀ h ∈ s.handlings, h.Sound
  waiting : s.manager.keysWithoutMembership = s.arrivals.filterMap waitingKey
  named : ∀ a ∈ s.arrivals, a.Named
  past : ∀ place known, s.manager.keyBuffer.buffer place = some known → known ≤ s.now
  received : ∀ p ∈ s.manager.keysWithoutMembership, p.key.creationTs ≤ s.now
  ordered : InOrder s.manager.keysWithoutMembership
  managed : s.manager.config.manageMediaKeys = true → Managed s

section Receive
variable (decode : String → Except String (List UInt8)) {m : EncryptionManager}
variable {roster : List JoinedMembership} {message : ReceivedEncryptionKey} {now : ℕ}

/-- What receiving a message does, by its verdict. -/
structure Receives (m : EncryptionManager) (roster : List JoinedMembership)
    (message : ReceivedEncryptionKey) (now : ℕ) (m' : EncryptionManager)
    (emitted : List Emission) (a : Arrival) : Prop where
  outcome : Outcome ⟨message.memberId, message.keyIndex, a.verdict, m, m', emitted⟩ now
  pending : m'.keysWithoutMembership = m.keysWithoutMembership ++ (waitingKey a).toList
  waits : ∀ p ∈ waitingKey a, p.key.memberId = message.memberId ∧
    p.key.keyIndex = message.keyIndex ∧ p.key.creationTs = now ∧ ¬ Listed roster p
  passes : a.Passed → (membershipOf roster message.memberId).isSome

theorem receiveKey_receives
    (past : ∀ place known, m.keyBuffer.buffer place = some known → known ≤ now) :
    Receives m roster message now (receiveKey decode m roster message now).1
      (receiveKey decode m roster message now).2.2
      ⟨message, verdictOf decode m roster message now⟩ := by
  have failing : ∀ emitted, Receives m roster message now m emitted ⟨message, .failed⟩ :=
    fun emitted => ⟨.unchanged now rfl rfl rfl nofun, (List.append_nil _).symm, nofun,
      fun ⟨_, _, h⟩ => nomatch h⟩
  unfold receiveKey verdictOf
  cases verifyOrigin m message with
  | error reason => exact failing _
  | ok _ =>
      cases decode message.keyB64 with
      | error e => exact failing _
      | ok bytes =>
          dsimp only
          unfold judge
          cases listed : membershipOf roster message.memberId with
          | none =>
              refine ⟨.unchanged now rfl rfl rfl nofun, rfl, ?_, fun ⟨_, _, h⟩ => nomatch h⟩
              rintro p ⟨⟩
              exact ⟨rfl, rfl, rfl, by simp [Listed, listed]⟩
          | some s =>
              dsimp only
              have accepted := @acceptVerifiedKey_outcome m
                ⟨bytes, message.keyIndex, message.memberId, now⟩ message.origin s
                fun existing h => past _ existing h
              refine ⟨accepted, ?_, ?_, fun _ => Option.isSome_iff_exists.mpr ⟨s, listed⟩⟩
              · rw [acceptVerifiedKey_pending]
                unfold judgeAgainst waitingKey
                cases verifyAgainstMembership message.origin s <;> simp
              · unfold judgeAgainst waitingKey
                cases verifyAgainstMembership message.origin s <;> simp

end Receive

section Keeps
variable {decode : String → Except String (List UInt8)} {s : System}

theorem lastPassed_concat (arrivals : List Arrival) (a : Arrival) (memberId : String)
    (index : UInt8) :
    lastPassed (arrivals ++ [a]) memberId index =
      (passedBytes memberId index a).or (lastPassed arrivals memberId index) := by
  rw [lastPassed, List.filterMap_append, List.getLast?_append]
  congr 1
  cases found : passedBytes memberId index a with
  | none => rw [List.filterMap_cons_none found]; rfl
  | some bytes => rw [List.filterMap_cons_some found]; rfl

theorem ordered_concat {waiting : List PendingInboundKey} {p : Option PendingInboundKey} {now : ℕ}
    (ordered : InOrder waiting) (past : ∀ q ∈ waiting, q.key.creationTs ≤ now)
    (at_now : ∀ q ∈ p, q.key.creationTs = now) : InOrder (waiting ++ p.toList) := by
  refine List.pairwise_append.mpr ⟨ordered, ?_, fun q hq r hr => ?_⟩
  · cases p with
    | none => exact .nil
    | some p => exact List.pairwise_singleton _ _
  · rw [at_now r (Option.mem_toList.mp hr)]
    exact past q hq

theorem Managed.receive {message : ReceivedEncryptionKey} {now : ℕ} {m : EncryptionManager}
    {emitted : List Emission} {a : Arrival} (managed : Managed s) (inv : Inv s)
    (r : Receives s.manager s.roster message now m emitted a) (same : a.message = message)
    (later : s.now ≤ now) (handlings : List Handling) :
    Managed { s with manager := m, now, arrivals := s.arrivals ++ [a], handlings } where
  absent p hp := by
    dsimp only at hp ⊢
    rw [r.pending] at hp
    rcases List.mem_append.mp hp with old | new
    · exact managed.absent p old
    · exact (r.waits p (Option.mem_toList.mp new)).2.2.2
  current p hp index existing h := by
    dsimp only at hp h
    rw [r.pending] at hp
    rcases List.mem_append.mp hp with old | new
    · rcases r.outcome.filter _ _ h with before | ⟨at_place, -, passed⟩
      · exact managed.current p old index existing before
      · -- accepted under a member id that is listed, so it is another one
        refine absurd ?_ (managed.absent p old)
        rw [Listed, filterKey_memberId at_place]
        exact r.passes passed
    · rw [(r.waits p (Option.mem_toList.mp new)).2.2.1]
      rcases r.outcome.filter _ _ h with before | ⟨-, rfl, -⟩
      · exact (inv.past _ _ before).trans later
      · exact le_rfl
  last := by
    refine List.pairwise_append.mpr ⟨managed.last, List.pairwise_singleton _ _, ?_⟩
    rintro b hb c hc waits sameId passed
    obtain rfl := List.mem_singleton.mp hc
    obtain ⟨p, hp⟩ := Option.isSome_iff_exists.mp waits
    have mem : p ∈ s.manager.keysWithoutMembership :=
      inv.waiting ▸ List.mem_filterMap.mpr ⟨b, hb, hp⟩
    refine managed.absent p mem ?_
    rw [Listed, (inv.named b hb p hp).1, ← sameId, same]
    exact r.passes passed

theorem Inv.receive {message : ReceivedEncryptionKey} {now : ℕ} {m : EncryptionManager}
    {emitted : List Emission} {a : Arrival} (inv : Inv s)
    (r : Receives s.manager s.roster message now m emitted a) (same : a.message = message)
    (later : s.now ≤ now) :
    Inv { s with
      manager := m
      now := now
      arrivals := s.arrivals ++ [a]
      handlings := s.handlings ++
        [⟨message.memberId, message.keyIndex, a.verdict, s.manager, m, emitted⟩] } where
  distinct memberId := r.outcome.distinct memberId (inv.distinct memberId)
  held memberId index := by
    dsimp only
    rw [lastPassed_concat, ← inv.held memberId index, passedBytes, same]
    exact r.outcome.held memberId index
  sound := List.forall_mem_append.mpr ⟨inv.sound, List.forall_mem_singleton.mpr r.outcome.sound⟩
  waiting := by
    dsimp only
    rw [r.pending, inv.waiting, List.filterMap_append]
    congr 1
  named := by
    refine List.forall_mem_append.mpr ⟨inv.named, List.forall_mem_singleton.mpr fun p hp => ?_⟩
    rw [same]
    exact ⟨(r.waits p hp).1, (r.waits p hp).2.1⟩
  past place known h := by
    rcases r.outcome.filter place known h with before | ⟨-, rfl, -⟩
    · exact (inv.past place known before).trans later
    · exact le_rfl
  received p hp := by
    dsimp only at hp
    rw [r.pending] at hp
    rcases List.mem_append.mp hp with old | new
    · exact (inv.received p old).trans later
    · exact (r.waits p (Option.mem_toList.mp new)).2.2.1.le
  ordered := by
    dsimp only
    rw [r.pending]
    exact ordered_concat inv.ordered (fun q hq => (inv.received q hq).trans later)
      fun q hq => (r.waits q hq).2.2.1
  managed h := (inv.managed (r.outcome.config ▸ h)).receive inv r same later _

/-- Where nothing of `f` comes behind something of `g`, both together are the one before the
other. -/
theorem filterMap_or_of_pairwise {α β : Type} {f g : α → Option β} {l : List α}
    (apart : l.Pairwise fun a b => (g a).isSome → f b = none)
    (once : ∀ a ∈ l, (g a).isSome → f a = none) :
    l.filterMap (fun a => (f a).or (g a)) = l.filterMap f ++ l.filterMap g := by
  induction l with
  | nil => rfl
  | cons a rest ih =>
      obtain ⟨first, apart⟩ := List.pairwise_cons.mp apart
      have later := ih apart fun b hb => once b (List.mem_cons_of_mem _ hb)
      cases hg : g a with
      | none =>
          rw [List.filterMap_cons_none hg]
          cases hf : f a with
          | none =>
              rw [List.filterMap_cons_none hf, List.filterMap_cons_none (by rw [hf, hg]; rfl), later]
          | some b =>
              rw [List.filterMap_cons_some hf,
                List.filterMap_cons_some (b := b) (by rw [hf]; rfl), later]
              rfl
      | some b =>
          have own := once a List.mem_cons_self (by simp [hg])
          have gone : rest.filterMap f = [] :=
            List.filterMap_eq_nil_iff.mpr fun c hc => first c hc (by simp [hg])
          rw [List.filterMap_cons_some hg, List.filterMap_cons_none own, gone,
            List.filterMap_cons_some (b := b) (by rw [own, hg]; rfl), later, gone]
          rfl

section Settle
variable {roster : List JoinedMembership} {a : Arrival} {p : PendingInboundKey}

theorem settle_message : (settle roster a).message = a.message := by
  unfold settle
  cases a.verdict <;> rfl

theorem waitingKey_eq_some (h : waitingKey a = some p) :
    a.verdict = .waiting p.key ∧ p.origin = a.message.origin := by
  unfold waitingKey at h
  cases hv : a.verdict with
  | waiting key =>
      rw [hv] at h
      cases h
      exact ⟨rfl, rfl⟩
  | failed => rw [hv] at h; cases h
  | passed s bytes => rw [hv] at h; cases h

theorem waitingKey_settle :
    waitingKey (settle roster a) = (waitingKey a).filter fun p => ¬ Listed roster p := by
  unfold waitingKey settle
  cases hv : a.verdict with
  | waiting key =>
      dsimp only
      unfold judge
      cases listed : membershipOf roster key.memberId with
      | none => simp [Option.filter_some, Listed, listed]
      | some s =>
          unfold judgeAgainst
          cases checked : verifyAgainstMembership a.message.origin s <;>
            simp [Option.filter_some, Listed, listed, checked]
  | failed => simp [hv]
  | passed s bytes => simp [hv]

theorem passedBytes_settle (named : a.Named) (memberId : String) (index : UInt8) :
    passedBytes memberId index (settle roster a) =
      (passedBytes memberId index a).or
        ((waitingKey a).bind (pendingBytes roster memberId index)) := by
  have same : (settle roster a).message = a.message := settle_message
  unfold passedBytes
  rw [same]
  cases hv : a.verdict with
  | waiting key =>
      have waits : waitingKey a = some ⟨key, a.message.origin⟩ := by rw [waitingKey, hv]
      have own := named _ waits
      rw [waits, Option.bind_some, pendingBytes, own.1, own.2, settle, hv]
      rfl
  | failed => simp [waitingKey, settle, hv]
  | passed s bytes => simp [waitingKey, settle, hv]

theorem passed_settle (h : (settle roster a).Passed) :
    a.Passed ∨ ∃ p ∈ waitingKey a, Listed roster p := by
  cases hv : a.verdict with
  | waiting key =>
      right
      refine ⟨⟨key, a.message.origin⟩, by simp [waitingKey, hv], ?_⟩
      obtain ⟨s, bytes, h⟩ := h
      simp only [settle, hv, judge] at h
      unfold Listed
      cases listed : membershipOf roster key.memberId with
      | none => rw [listed] at h; cases h
      | some s => rfl
  | failed => rw [settle, hv] at h; exact .inl h
  | passed s bytes => exact .inl ⟨s, bytes, hv⟩

end Settle

theorem waiting_settle (roster : List JoinedMembership) (arrivals : List Arrival) :
    (arrivals.map (settle roster)).filterMap waitingKey =
      (arrivals.filterMap waitingKey).filter fun p => ¬ Listed roster p := by
  rw [List.filterMap_map, List.filter_filterMap]
  exact List.filterMap_congr fun a _ => waitingKey_settle

/-- The bytes of what waits, for the places of the member ids that wait. -/
theorem lastPassed_settle (inv : Inv s) (managed : Managed s) (roster : List JoinedMembership)
    (memberId : String) (index : UInt8) :
    lastPassed (s.arrivals.map (settle roster)) memberId index =
      ((s.manager.keysWithoutMembership.filterMap
        (pendingBytes roster memberId index)).getLast?).or
        (lastPassed s.arrivals memberId index) := by
  have settled : s.arrivals.filterMap (passedBytes memberId index ∘ settle roster) =
      s.arrivals.filterMap fun a => (passedBytes memberId index a).or
        ((waitingKey a).bind (pendingBytes roster memberId index)) :=
    List.filterMap_congr fun a ha => passedBytes_settle (inv.named a ha) memberId index
  have bytes_place : ∀ {v : Verdict} {own : String} {i : UInt8} {bytes : List UInt8},
      v.bytesFor own i memberId index = some bytes → memberId = own ∧ ∃ s b, v = .passed s b := by
    intro v own i bytes h
    cases v with
    | passed s b =>
        rw [Verdict.bytesFor] at h
        split_ifs at h with place
        exact ⟨place.1, s, b, rfl⟩
    | failed => cases h
    | waiting key => cases h
  have waits : ∀ {a : Arrival},
      ((waitingKey a).bind (pendingBytes roster memberId index)).isSome →
        ∃ p, waitingKey a = some p ∧ memberId = p.key.memberId := by
    intro a h
    obtain ⟨bytes, h⟩ := Option.isSome_iff_exists.mp h
    obtain ⟨p, hp, h⟩ := Option.bind_eq_some_iff.mp h
    exact ⟨p, hp, (bytes_place h).1⟩
  have apart := managed.last.imp_of_mem
    (S := fun a b => ((waitingKey a).bind (pendingBytes roster memberId index)).isSome →
      passedBytes memberId index b = none) fun {a b} ha hb behind some_a => by
      obtain ⟨p, hp, own⟩ := waits some_a
      refine Option.eq_none_iff_forall_ne_some.mpr fun bytes h => ?_
      obtain ⟨place, s, c, passed⟩ := bytes_place h
      refine behind (by simp [hp]) ?_ ⟨s, c, passed⟩
      rw [← (inv.named a ha p hp).1, ← place, own]
  have once : ∀ a ∈ s.arrivals,
      ((waitingKey a).bind (pendingBytes roster memberId index)).isSome →
        passedBytes memberId index a = none := by
    intro a _ some_a
    obtain ⟨p, hp, -⟩ := waits some_a
    rw [passedBytes, (waitingKey_eq_some hp).1]
    rfl
  rw [lastPassed, List.filterMap_map, settled, filterMap_or_of_pairwise apart once,
    List.getLast?_append, ← List.filterMap_filterMap, ← inv.waiting]
  rfl

theorem Managed.settle {m : EncryptionManager} (managed : Managed s) (inv : Inv s)
    (roster : List JoinedMembership)
    (drains : Drains roster { s.manager with keysWithoutMembership := [] }
      s.manager.keysWithoutMembership m) (handlings : List Handling) :
    Managed { s with
      manager := m, roster, arrivals := s.arrivals.map (settle roster), handlings } where
  absent p hp := by
    dsimp only at hp ⊢
    rw [drains.pending, List.nil_append] at hp
    simpa using (List.mem_filter.mp hp).2
  current p hp index existing h := by
    dsimp only at hp h
    rw [drains.pending, List.nil_append] at hp
    obtain ⟨mem, absent⟩ := List.mem_filter.mp hp
    rcases drains.filter _ _ h with before | ⟨q, -, listed, at_place, -⟩
    · exact managed.current p mem index existing before
    · refine absurd ?_ (of_decide_eq_true absent)
      rw [Listed, filterKey_memberId at_place]
      exact listed
  last := by
    refine List.pairwise_map.mpr (managed.last.imp_of_mem fun {a b} ha hb behind => ?_)
    rw [waitingKey_settle, settle_message, settle_message]
    intro waits sameId passed
    obtain ⟨p, hp⟩ := Option.isSome_iff_exists.mp waits
    obtain ⟨hp, absent⟩ := Option.filter_eq_some_iff.mp hp
    rcases passed_settle passed with before | ⟨q, hq, listed⟩
    · exact behind (by simp [hp]) sameId before
    · -- the other message waited under the same member id, which is not listed
      refine absurd ?_ (of_decide_eq_true absent)
      rw [Listed, (inv.named a ha p hp).1, ← sameId, ← (inv.named b hb q hq).1]
      exact listed

theorem Inv.settle {m : EncryptionManager} (inv : Inv s)
    (manages : s.manager.config.manageMediaKeys = true) (roster : List JoinedMembership)
    (drains : Drains roster { s.manager with keysWithoutMembership := [] }
      s.manager.keysWithoutMembership m) :
    Inv { s with
      manager := m
      roster := roster
      arrivals := s.arrivals.map (settle roster)
      handlings := s.handlings ++ drained roster { s.manager with keysWithoutMembership := [] }
        s.manager.keysWithoutMembership } where
  distinct memberId := drains.distinct memberId (inv.distinct memberId)
  held memberId index := by
    dsimp only
    rw [lastPassed_settle inv (inv.managed manages), ← inv.held memberId index]
    exact drains.held memberId index
  sound := List.forall_mem_append.mpr ⟨inv.sound, drains.sound⟩
  waiting := by
    dsimp only
    rw [drains.pending, waiting_settle, ← inv.waiting]
    rfl
  named := by
    refine List.forall_mem_map.mpr fun a ha p hp => ?_
    rw [waitingKey_settle] at hp
    rw [settle_message]
    exact inv.named a ha p (Option.filter_eq_some_iff.mp hp).1
  past place known h := by
    rcases drains.filter place known h with before | ⟨p, hp, -, -, rfl⟩
    · exact inv.past place known before
    · exact inv.received p hp
  received p hp := by
    dsimp only at hp
    rw [drains.pending, List.nil_append] at hp
    exact inv.received p (List.mem_filter.mp hp).1
  ordered := by
    dsimp only
    rw [drains.pending, List.nil_append]
    exact inv.ordered.sublist List.filter_sublist
  managed _ := (inv.managed manages).settle inv roster drains _

theorem step_inv {s' : System} {action : Action} (inv : Inv s)
    (h : step decode s action = some s') : Inv s' := by
  cases action with
  | receiveKey message now =>
      simp only [step, Option.ite_none_right_eq_some, Option.some.injEq] at h
      obtain ⟨later, rfl⟩ := h
      exact inv.receive (receiveKey_receives decode fun place known h =>
        (inv.past place known h).trans later) rfl later
  | rosterChanged roster =>
      simp only [step] at h
      split_ifs at h with manages
      · cases h
        exact inv.settle manages roster (checkPending_drains _ (inv.managed manages).current
          inv.ordered)
      · cases h
        exact { inv with managed := fun h => absurd h manages }

theorem start_inv (setup : Setup) (roster : List JoinedMembership) : Inv (start setup roster) where
  distinct _ := List.nodup_nil
  held _ _ := rfl
  sound _ h := absurd h List.not_mem_nil
  waiting := rfl
  named _ h := absurd h List.not_mem_nil
  past _ _ h := nomatch h
  received _ h := absurd h List.not_mem_nil
  ordered := .nil
  managed _ :=
    ⟨fun _ h => absurd h List.not_mem_nil, fun _ h => absurd h List.not_mem_nil, .nil⟩

end Keeps

/-- In every state of a run: one entry for each index, the bytes of the last message for it that
passed verification, and every handling sound. -/
theorem inbound_store_sound (decode : String → Except String (List UInt8)) (setup : Setup)
    (roster : List JoinedMembership) (actions : List Action) (s : System)
    (h : run (step decode) (start setup roster) actions = some s) :
    (∀ memberId, ((heldKeys s.manager.inboundKeys memberId).map (·.keyIndex)).Nodup) ∧
      (∀ memberId index,
        heldAt s.manager.inboundKeys memberId index = lastPassed s.arrivals memberId index) ∧
      ∀ handling ∈ s.handlings, handling.Sound := by
  have inv : Inv s :=
    run_invariant_of_step (fun _ _ _ inv => step_inv inv) (start_inv setup roster) h
  exact ⟨inv.distinct, inv.held, inv.sound⟩

def bob : JoinedMembership := callMembership "@bob:x" "B" "bob" "b"

/-- Bob's key comes before his membership and is held once that is listed. -/
theorem inbound_store_sound_waits :
    ∃ s, run (step decodeOne) (start { alice with signalHandler := true } [])
        [.receiveKey bobsKey 0, .rosterChanged [bob]] = some s ∧
      lastPassed s.arrivals "bob" 0 = some [1] ∧
      (∀ memberId, ((heldKeys s.manager.inboundKeys memberId).map (·.keyIndex)).Nodup) ∧
      (∀ memberId index,
        heldAt s.manager.inboundKeys memberId index = lastPassed s.arrivals memberId index) ∧
      ∀ handling ∈ s.handlings, handling.Sound :=
  ⟨_, rfl, rfl, inbound_store_sound decodeOne { alice with signalHandler := true } []
    [.receiveKey bobsKey 0, .rosterChanged [bob]] _ rfl⟩

/-- Without an identity an accepted key is held and not signalled, and where media keys are not
managed a key that waits is not checked when its member event appears. -/
theorem held_without_signal :
    (∃ s, run (step decodeOne)
        (start { alice with signalHandler := true, identityMapper := some fun _ => none } [bob])
        [.receiveKey bobsKey 0] = some s ∧
      ∃ h ∈ s.handlings, h.verdict = .passed bob [1] ∧ h.Changes ∧ ¬ h.Signals) ∧
      ∃ s, run (step decodeOne) (start { alice with config := { manageMediaKeys := false } } [])
          [.receiveKey bobsKey 0, .rosterChanged [bob]] = some s ∧
        verifyAgainstMembership bobsKey.origin bob = .ok () ∧
        s.manager.keysWithoutMembership ≠ [] ∧ heldAt s.manager.inboundKeys "bob" 0 = none := by
  refine ⟨⟨_, rfl, _, List.mem_singleton_self _, rfl, ?_, ?_⟩, _, rfl, rfl, ?_, rfl⟩
  · exact (nomatch ·)
  · rintro ⟨membership, signal, h⟩
    cases h with
    | tail _ h => cases h
  · exact List.cons_ne_nil _ _

end MatrixRtc.InboundHistory

import MatrixRtc.RosterEvents

/-!
# The memberships behind an engine's roster

Entries and what is kept of members are made and dropped where a member id appears in a
snapshot or goes. They describe the memberships of the last snapshot in the runs whose
snapshots never give an id to another sender or device without leaving it out once, and in no
others.
-/
namespace MatrixRtc.RosterMembers
open MemberEvents MediaTransports Tables MediaPools PoolMembers
open HostRosters CallEngines EngineStreams EngineSnapshots RosterEvents StepRuns

/-- What is kept of a member. -/
structure Note where
  streams : List StreamState
  installedKeys : Option (List UInt8)
  encryption : Option FrameEncryptionState
  failingSince : Option ℕ
  sentInClear : Bool
  speaking : Bool
  heard : Option SpeakerState
deriving DecidableEq

/-- Nothing is kept. -/
def Note.blank : Note := ⟨[], none, none, none, false, false, none⟩

def noteOf (a : Actor) (memberId : String) : Note :=
  { streams := (streamsOf a.roster memberId).getD []
    installedKeys := a.installedKeys.lookup memberId
    encryption := a.encryptionStates.lookup memberId
    failingSince := a.undecryptableSince.lookup memberId
    sentInClear := a.sentInClear.contains memberId
    speaking := a.speaking.contains memberId
    heard := a.speakers.lookup memberId }

/-- Whose the member id is. -/
def senderOf (members : List JoinedMembership) (memberId : String) : Option String :=
  (members.find? (·.memberId == memberId)).map (·.sender)

/-- The senders under whom something was recorded since nothing was: where the note of a
member changes, the holder of its id is one of them. -/
def recorded (members : List JoinedMembership) (a b : Actor) (under : String → List String) :
    String → List String := fun memberId =>
  if noteOf b memberId = .blank then []
  else if noteOf b memberId = noteOf a memberId then under memberId
  else under memberId ++ (senderOf members memberId).toList

/-- An actor, the memberships of its last snapshot, and the senders under whom what it keeps
of a member was recorded. -/
structure Watched where
  actor : Actor
  members : List JoinedMembership
  under : String → List String

def start (config : PoolConfig) : Watched := ⟨.new config, [], fun _ => []⟩

/-- A turn; the member ids of a snapshot are distinct. -/
def step (w : Watched) (input : Turn × Answers) : Option Watched :=
  let actor := w.actor.turn input.1 input.2
  match input.1 with
  | .memberships snapshot =>
      if (snapshot.map (·.memberId)).Nodup then
        let reconciled := w.actor.reconcileRoster snapshot
        let under := recorded snapshot w.actor reconciled w.under
        some ⟨actor, snapshot, recorded snapshot reconciled actor under⟩
      else none
  | _ => some ⟨actor, w.members, recorded w.members w.actor actor w.under⟩

/-- The roster describes the memberships: one participant each, under the sender and the
device that sent it, and with nothing recorded under another sender. -/
structure Right (w : Watched) : Prop where
  single : (idsOf w.actor.roster).Nodup
  named : ∀ p ∈ w.actor.roster, Named w.members p.memberId
  described : ∀ member ∈ w.members, ∃ p ∈ w.actor.roster, p.memberId = member.memberId ∧
    p.userId = member.sender ∧ p.deviceId = member.origin.senderDeviceId
  clean : ∀ member ∈ w.members, ∀ sender ∈ w.under member.memberId, sender = member.sender

/-- Whoever stays in a snapshot is under the sender and the device that it was under. -/
def Continues (w : Watched) (input : Turn × Answers) : Prop :=
  match input.1 with
  | .memberships snapshot => ∀ member ∈ snapshot, ∀ former ∈ w.members,
      former.memberId = member.memberId →
        former.sender = member.sender ∧
          former.origin.senderDeviceId = member.origin.senderDeviceId
  | _ => True

instance : (w : Watched) → (input : Turn × Answers) → Decidable (Continues w input)
  | w, (.memberships snapshot, _) =>
      inferInstanceAs (Decidable (∀ member ∈ snapshot, ∀ former ∈ w.members,
        former.memberId = member.memberId →
          former.sender = member.sender ∧
            former.origin.senderDeviceId = member.origin.senderDeviceId))
  | _, (.signalling _, _) | _, (.lapsed _, _) | _, (.ended, _) | _, (.pool _, _)
  | _, (.message _, _) => isTrue trivial

section
variable {a b : Actor} {memberId : String} {snapshot : List JoinedMembership}

theorem noteOf_removeMember (a : Actor) (other : String) (announce : Option ℕ) :
    noteOf (a.removeMember other announce) memberId =
      if memberId = other then .blank else noteOf a memberId := by
  have streams : streamsOf (a.removeMember other announce).roster memberId =
      if memberId = other then none else streamsOf a.roster memberId :=
    streamsOf_remove a.roster other
  unfold noteOf
  rw [streams]
  split_ifs with same
  · subst same
    simp [Actor.removeMember, Note.blank, AList.lookup_erase]
  · simp [Actor.removeMember, AList.lookup_erase_ne same, same]

theorem noteOf_removeAll (announceFor : String → Option ℕ) (departed : List Participant)
    (a : Actor) :
    noteOf (departed.foldl (fun b p => b.removeMember p.memberId (announceFor p.memberId)) a)
        memberId =
      if memberId ∈ idsOf departed then .blank else noteOf a memberId := by
  induction departed generalizing a with
  | nil => rfl
  | cons p rest ih =>
      rw [List.foldl_cons, ih, noteOf_removeMember]
      by_cases same : memberId = p.memberId <;> by_cases later : memberId ∈ idsOf rest <;>
        simp_all [idsOf]

theorem noteOf_addMember (a : Actor) {member : JoinedMembership} (announce : Option ℕ)
    (differs : member.memberId ≠ memberId) :
    noteOf (a.addMember member announce) memberId = noteOf a memberId := by
  have streams : streamsOf (a.addMember member announce).roster memberId =
      streamsOf a.roster memberId := by
    refine (streamsOf_append a.roster (a.participantOf member)).trans ?_
    rw [if_neg (show ¬ (a.participantOf member).memberId = memberId from differs), Option.or_none]
  unfold noteOf
  rw [streams]
  rfl

/-- Nothing is kept of a member that the snapshot leaves out. -/
theorem noteOf_reconcileRoster (there : memberId ∈ idsOf a.roster)
    (unnamed : ¬ Named snapshot memberId) :
    noteOf (a.reconcileRoster snapshot) memberId = .blank := by
  unfold Actor.reconcileRoster
  extract_lets withUs arrived count announceFor b
  have arrivals (rest : List JoinedMembership) (subset : rest ⊆ snapshot) (c : Actor) :
      noteOf (c.addArrived rest announceFor) memberId = noteOf c memberId := by
    unfold Actor.addArrived
    induction rest generalizing c with
    | nil => rfl
    | cons member rest ih =>
        rw [List.foldl_cons, ih (List.subset_of_cons_subset subset)]
        split_ifs
        · rfl
        · exact noteOf_addMember c _ fun same => unnamed ⟨member, subset (.head _), same⟩
  rw [arrivals snapshot (List.Subset.refl _), Actor.removeDeparted, noteOf_removeAll, if_pos]
  obtain ⟨p, at_, rfl⟩ := List.mem_map.mp there
  refine List.mem_map.mpr ⟨p, List.mem_filter.mpr ⟨at_, ?_⟩, rfl⟩
  rw [Bool.not_eq_true', ← Bool.not_eq_true, List.contains_iff_mem]
  exact fun named => unnamed (named_iff.mpr named)

theorem senderOf_named (distinct : (snapshot.map (·.memberId)).Nodup) {member : JoinedMembership}
    (at_ : member ∈ snapshot) : senderOf snapshot member.memberId = some member.sender := by
  have found : snapshot.find? (·.memberId == member.memberId) = some member := by
    have is_some : (snapshot.find? (·.memberId == member.memberId)).isSome :=
      List.find?_isSome.mpr ⟨member, at_, beq_iff_eq.mpr rfl⟩
    obtain ⟨other, there⟩ := Option.isSome_iff_exists.mp is_some
    have same : other.memberId = member.memberId := by simpa using List.find?_some there
    rw [there, List.inj_on_of_nodup_map distinct (List.mem_of_find?_eq_some there) at_ same]
  rw [senderOf, found]
  rfl

theorem senderOf_unnamed (unnamed : ¬ Named snapshot memberId) :
    senderOf snapshot memberId = none := by
  rw [senderOf, Option.map_eq_none_iff, List.find?_eq_none]
  intro member at_ same
  exact unnamed ⟨member, at_, beq_iff_eq.mp same⟩

theorem of_mem_recorded {under : String → List String} {sender : String}
    (at_ : sender ∈ recorded snapshot a b under memberId) :
    sender ∈ under memberId ∨ sender ∈ senderOf snapshot memberId := by
  unfold recorded at at_
  split_ifs at at_
  · cases at_
  · exact .inl at_
  · exact (List.mem_append.mp at_).imp_right Option.mem_toList.mp

theorem recorded_unnamed (unnamed : ¬ Named snapshot memberId) {under : String → List String}
    (before : noteOf b memberId = .blank ∨ under memberId = []) :
    recorded snapshot a b under memberId = [] := by
  unfold recorded
  rw [senderOf_unnamed unnamed, Option.toList_none, List.append_nil]
  obtain blank | nothing := before
  · rw [if_pos blank]
  · rw [nothing, ite_self, ite_self]

/-- What holds between turns. -/
structure Inv (w : Watched) : Prop where
  nodup : (idsOf w.actor.roster).Nodup
  ids : ∀ memberId, memberId ∈ idsOf w.actor.roster ↔ Named w.members memberId
  distinct : (w.members.map (·.memberId)).Nodup
  unnamed : ∀ memberId, ¬ Named w.members memberId → w.under memberId = []

theorem of_entries (h : Tells a b) {p : Participant} (at_ : p ∈ a.roster) :
    ∃ q ∈ b.roster, entry q = entry p := by
  have there : entry p ∈ b.roster.map entry := h.entries ▸ List.mem_map_of_mem at_
  obtain ⟨q, at_q, same⟩ := List.mem_map.mp there
  exact ⟨q, at_q, same⟩

theorem described_of_entries (h : Tells a b) {member : JoinedMembership}
    (before : ∃ p ∈ a.roster, p.memberId = member.memberId ∧ p.userId = member.sender ∧
      p.deviceId = member.origin.senderDeviceId) :
    ∃ p ∈ b.roster, p.memberId = member.memberId ∧ p.userId = member.sender ∧
      p.deviceId = member.origin.senderDeviceId := by
  obtain ⟨p, at_, is_member, is_sender, is_device⟩ := before
  obtain ⟨q, at_q, same⟩ := of_entries h at_
  have member_ : (entry q).memberId = (entry p).memberId := congrArg _ same
  have user : (entry q).userId = (entry p).userId := congrArg _ same
  have device : (entry q).deviceId = (entry p).deviceId := congrArg _ same
  exact ⟨q, at_q, member_.trans is_member, user.trans is_sender, device.trans is_device⟩

theorem tells_applied (a : Actor) (snapshot : List JoinedMembership) (t : Answers) :
    Tells (a.reconcileRoster snapshot) (a.turn (.memberships snapshot) t) := by
  have told := tells_throughPool (a.reconcileRoster snapshot) (.applySnapshot snapshot) t
  exact
    { entries := told.entries
      published := fun _ => rfl
      told := told.told }

theorem of_step_applied {w v : Watched} {t : Answers}
    (h : step w (.memberships snapshot, t) = some v) :
    (snapshot.map (·.memberId)).Nodup ∧
      v = ⟨w.actor.turn (.memberships snapshot) t, snapshot,
        recorded snapshot (w.actor.reconcileRoster snapshot)
          (w.actor.turn (.memberships snapshot) t)
          (recorded snapshot w.actor (w.actor.reconcileRoster snapshot) w.under)⟩ := by
  unfold step at h
  dsimp only at h
  split_ifs at h with distinct
  exact ⟨distinct, (Option.some.inj h).symm⟩

theorem step_other {w : Watched} {turn : Turn} (t : Answers)
    (other : ∀ snapshot, turn ≠ .memberships snapshot) :
    step w (turn, t) = some ⟨w.actor.turn turn t, w.members,
      recorded w.members w.actor (w.actor.turn turn t) w.under⟩ ∧
      Continues w (turn, t) := by
  cases turn with
  | memberships snapshot => exact absurd rfl (other snapshot)
  | _ => exact ⟨rfl, trivial⟩

theorem inv_step {w v : Watched} (input : Turn × Answers) (inv : Inv w)
    (h : step w input = some v) : Inv v := by
  obtain ⟨turn, t⟩ := input
  by_cases applies : ∃ snapshot, turn = .memberships snapshot
  · obtain ⟨snapshot, rfl⟩ := applies
    obtain ⟨distinct, rfl⟩ := of_step_applied h
    obtain ⟨announces, b, own, -, kept, arrived⟩ := reconcileRoster_spec w.actor snapshot
    have ids := ids_of_entries (tells_applied w.actor snapshot t)
    refine ⟨?_, fun memberId => ?_, distinct, fun memberId unnamed => ?_⟩
    · dsimp only
      rw [ids]
      refine arrived.nodup ?_
      rw [kept]
      exact inv.nodup.sublist (List.filter_sublist.map _)
    · dsimp only
      rw [ids, arrived.ids, kept]
      refine or_iff_right_of_imp fun there => ?_
      obtain ⟨p, at_, rfl⟩ := List.mem_map.mp there
      exact named_iff.mpr (List.contains_iff_mem.mp (List.mem_filter.mp at_).2)
    · refine recorded_unnamed unnamed (.inr (recorded_unnamed unnamed ?_))
      by_cases there : memberId ∈ idsOf w.actor.roster
      · exact .inl (noteOf_reconcileRoster there unnamed)
      · exact .inr (inv.unnamed memberId fun named => there ((inv.ids memberId).mpr named))
  · have other : ∀ snapshot, turn ≠ .memberships snapshot := fun snapshot same =>
      applies ⟨snapshot, same⟩
    rw [(step_other t other).1] at h
    cases h
    have ids := ids_of_entries (tells_turn w.actor t other)
    refine ⟨?_, fun memberId => ?_, inv.distinct, fun memberId unnamed => ?_⟩
    · dsimp only
      rw [ids]
      exact inv.nodup
    · dsimp only
      rw [ids]
      exact inv.ids memberId
    · exact recorded_unnamed unnamed (.inr (inv.unnamed memberId unnamed))

theorem eq_of_ids (nodup : (idsOf a.roster).Nodup) {p q : Participant} (at_p : p ∈ a.roster)
    (at_q : q ∈ a.roster) (same : p.memberId = q.memberId) : p = q :=
  List.inj_on_of_nodup_map nodup at_p at_q same

/-- A turn that is no snapshot leaves the description right. -/
theorem right_other {w : Watched} (inv : Inv w) (right : Right w) {turn : Turn} (t : Answers)
    (other : ∀ snapshot, turn ≠ .memberships snapshot) :
    Right ⟨w.actor.turn turn t, w.members,
      recorded w.members w.actor (w.actor.turn turn t) w.under⟩ := by
  have told := tells_turn w.actor t other
  have ids := ids_of_entries told
  refine
    { single := ids ▸ right.single
      named := fun p at_ => ?_
      described := fun member at_ => described_of_entries told (right.described member at_)
      clean := fun member at_ sender is_ => ?_ }
  · have there : p.memberId ∈ idsOf w.actor.roster := ids ▸ List.mem_map_of_mem at_
    exact (inv.ids _).mp there
  · obtain before | holds := of_mem_recorded is_
    · exact right.clean member at_ sender before
    · rw [senderOf_named inv.distinct at_] at holds
      exact (Option.some.inj holds).symm

/-- A snapshot leaves the description right exactly where it gives no id that stays to another
sender or device. -/
theorem right_applied_iff {w v : Watched} (inv : Inv w) (right : Right w)
    (snapshot : List JoinedMembership) (t : Answers)
    (h : step w (.memberships snapshot, t) = some v) :
    Right v ↔ Continues w (.memberships snapshot, t) := by
  have after := inv_step _ inv h
  obtain ⟨distinct, rfl⟩ := of_step_applied h
  have told := tells_applied w.actor snapshot t
  obtain ⟨announces, b, own, -, kept, arrived⟩ := reconcileRoster_spec w.actor snapshot
  -- whoever stays has the entry that it had
  have stays {p : Participant} (at_ : p ∈ w.actor.roster) (named : Named snapshot p.memberId) :
      p ∈ (w.actor.reconcileRoster snapshot).roster := by
    refine arrived.stays p ?_
    rw [kept]
    exact List.mem_filter.mpr ⟨at_, List.contains_iff_mem.mpr (named_iff.mp named)⟩
  constructor
  · intro later member at_ former was same
    obtain ⟨p, at_p, is_member, is_sender, is_device⟩ := later.described member at_
    obtain ⟨q, at_q, was_member, was_sender, was_device⟩ := right.described former was
    obtain ⟨r, at_r, r_is⟩ := of_entries told (stays at_q
      ⟨member, at_, (was_member.trans same).symm⟩)
    have member_ : (entry r).memberId = (entry q).memberId := congrArg _ r_is
    have user : (entry r).userId = (entry q).userId := congrArg _ r_is
    have device : (entry r).deviceId = (entry q).deviceId := congrArg _ r_is
    have is_p : r = p := eq_of_ids after.nodup at_r at_p
      ((member_.trans (was_member.trans same)).trans is_member.symm)
    rw [is_p] at user device
    exact ⟨was_sender.symm.trans (user.symm.trans is_sender),
      was_device.symm.trans (device.symm.trans is_device)⟩
  · intro continues
    refine
      { single := after.nodup
        named := fun p at_ => (after.ids _).mp (List.mem_map_of_mem at_)
        described := fun member at_ => described_of_entries told ?_
        clean := fun member at_ sender is_ => ?_ }
    · by_cases there : member.memberId ∈ idsOf w.actor.roster
      · obtain ⟨former, was, same⟩ := (inv.ids _).mp there
        obtain ⟨q, at_q, was_member, was_sender, was_device⟩ := right.described former was
        obtain ⟨sender, device⟩ := continues member at_ former was same
        exact ⟨q, stays at_q ⟨member, at_, (was_member.trans same).symm⟩, was_member.trans same,
          was_sender.trans sender, was_device.trans device⟩
      · have onto : member.memberId ∈ idsOf (w.actor.reconcileRoster snapshot).roster :=
          (arrived.ids _).mpr (.inr ⟨member, at_, rfl⟩)
        obtain ⟨p, at_p, is_member⟩ := List.mem_map.mp onto
        obtain before | ⟨other, at_other, rfl, -⟩ := arrived.members p at_p
        · rw [kept] at before
          exact absurd (List.mem_map.mpr ⟨p, (List.mem_filter.mp before).1, is_member⟩) there
        · have same : other = member :=
            List.inj_on_of_nodup_map distinct at_other at_ is_member
          subst same
          exact ⟨_, at_p, rfl, rfl, rfl⟩
    · have holder : senderOf snapshot member.memberId = some member.sender :=
        senderOf_named distinct at_
      obtain before | holds := of_mem_recorded is_
      · obtain before | holds := of_mem_recorded before
        · by_cases named : Named w.members member.memberId
          · obtain ⟨former, was, same⟩ := named
            rw [← same] at before
            exact (right.clean former was sender before).trans
              (continues member at_ former was same).1
          · rw [inv.unnamed _ named] at before
            cases before
        · rw [holder] at holds
          exact (Option.some.inj holds).symm
      · rw [holder] at holds
        exact (Option.some.inj holds).symm

theorem right_step_iff {w v : Watched} (input : Turn × Answers) (inv : Inv w) (right : Right w)
    (h : step w input = some v) : Right v ↔ Continues w input := by
  obtain ⟨turn, t⟩ := input
  by_cases applies : ∃ snapshot, turn = .memberships snapshot
  · obtain ⟨snapshot, rfl⟩ := applies
    exact right_applied_iff inv right snapshot t h
  · have other : ∀ snapshot, turn ≠ .memberships snapshot := fun snapshot same =>
      applies ⟨snapshot, same⟩
    obtain ⟨taken, continues⟩ := @step_other w turn t other
    rw [taken] at h
    cases h
    exact iff_of_true (right_other inv right t other) continues

end

/-- In a run whose snapshots each have distinct member ids, the roster describes the
memberships after every turn exactly where no snapshot gives an id that was in the one before
it to another sender or another device. -/
theorem roster_describes_iff (config : PoolConfig) (inputs : List (Turn × Answers)) (w : Watched)
    (h : run step (start config) inputs = some w) :
    Always step Right (start config) inputs ↔
      Admissible step Continues (start config) inputs := by
  refine always_iff_admissible (I := Inv) (fun _ input _ inv next => inv_step input inv next)
    (fun _ input _ inv right next => right_step_iff input inv right next) ?_ ?_ h
  · exact
      { nodup := List.nodup_nil
        ids := fun memberId => by simp [start, Actor.new, idsOf, Named]
        distinct := List.nodup_nil
        unnamed := fun _ _ => rfl }
  · exact
      { single := List.nodup_nil
        named := fun _ at_ => by cases at_
        described := fun _ at_ => by cases at_
        clean := fun _ at_ => by cases at_ }

/-- What a turn is answered where it asks for nothing. -/
def unasked (now : ℕ) : Answers := ⟨now, .ok (), true, fun _ => true⟩

/-- Bob's membership, and its id stated by Carol. -/
def bobMember : JoinedMembership := bobNaming [jwtTransport "https://a.x"]

def carolMember : JoinedMembership := { bobMember with sender := "@carol:x" }

/-- Bob is there with his camera. -/
def bobOnCamera : List (Turn × Answers) :=
  [(.memberships [bobMember], unasked 0),
    (.pool (.connectFinished "https://a.x" 0 (.ok 1)), unasked 1),
    (.pool (.connection "https://a.x" 1 (.trackAdded "@bob:x:DEVICE" .camera 7)), unasked 2)]

/-- Bob leaves before Carol states his id: she starts clean. -/
theorem roster_describes_iff_left :
    Always step Right (start aliceConfig)
      (bobOnCamera ++ [(.memberships [], unasked 3), (.memberships [carolMember], unasked 4)]) := by
  have runs : (run step (start aliceConfig) (bobOnCamera ++
      [(.memberships [], unasked 3), (.memberships [carolMember], unasked 4)])).isSome := by
    decide +kernel
  obtain ⟨w, reached⟩ := Option.isSome_iff_exists.mp runs
  exact (roster_describes_iff aliceConfig _ w reached).mpr (by decide +kernel)

/-- Carol states Bob's id in the next snapshot: his name and his camera are shown for her. -/
theorem id_passes_to_another :
    ¬ ∀ (config : PoolConfig) (inputs : List (Turn × Answers)) (w : Watched),
      run step (start config) inputs = some w → Always step Right (start config) inputs := by
  intro h
  have runs : (run step (start aliceConfig)
      (bobOnCamera ++ [(.memberships [carolMember], unasked 3)])).isSome := by decide +kernel
  obtain ⟨w, reached⟩ := Option.isSome_iff_exists.mp runs
  have described := (h aliceConfig _ w reached).mono fun w right =>
    (⟨right.described, right.clean⟩ : (∀ member ∈ w.members, ∃ p ∈ w.actor.roster,
      p.memberId = member.memberId ∧ p.userId = member.sender ∧
        p.deviceId = member.origin.senderDeviceId) ∧
      ∀ member ∈ w.members, ∀ sender ∈ w.under member.memberId, sender = member.sender)
  revert described
  decide +kernel

end MatrixRtc.RosterMembers

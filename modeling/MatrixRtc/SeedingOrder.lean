import MatrixRtc.RoomFeeder

/-!
# Seeding a room

The feeder calls a room seeded once it has applied a membership for the first time,
and joins wait for that. This module records, beside the feeder, which of the subjects
it asked for have arrived and which have been applied, and asks whether a seeded room
has had all of them. The gate takes either spelling of the slot type for the slots,
and either of two membership subjects for the membership.
-/
namespace MatrixRtc.SeedingOrder
open MemberEvents MemberIngest RoomSlots SlotSessions BaseRooms RoomFeeder StepRuns

/-- One thing a client is asked to deliver the current value of. -/
inductive Subject where
  | encryption
  | members
  | sticky
  | state (eventType : String)
deriving DecidableEq, Repr

section
variable (dialect : IngestDialect) (ownUserId : String)

/-- The room state a dialect needs: encryption, users and, where it reads slots, the slot
state under each spelling. -/
def roomSubjects : List Subject :=
  [.encryption, .members] ++ if dialect.readsSlots then slotEventTypes.map .state else []

/-- What the membership is read from. -/
def membershipSubjects : List Subject :=
  .sticky :: dialect.membershipStateEventTypes.map .state

/-- `subjects_for`, with the three subjects of every subscription. -/
def subjectsFor : List Subject := roomSubjects dialect ++ membershipSubjects dialect

/-- The subject a delivery is a value of; joined members without ourselves are not the
room's. -/
def subjectOf : RoomInput → Option Subject
  | .encryption _ => some .encryption
  | .members userIds => if ownUserId ∈ userIds then some .members else none
  | .sticky _ => some .sticky
  | .state eventType _ => some (.state eventType)
  | .holdsEnded | .joined .. | .left _ | .observed _ => none

/-- The feeder, the subjects that have arrived and those that were applied to the room. -/
structure SeedingRun where
  feeder : RoomFeederRun
  arrived : List Subject
  applied : List Subject

def SeedingRun.start (roomId : String) : SeedingRun := ⟨.start roomId, [], []⟩

/-- The membership subjects the feeder holds a value of. -/
def heldSubjects (r : RoomFeederRun) : List Subject :=
  (if r.sticky.isSome then [.sticky] else []) ++ r.membershipState.map fun entry => .state entry.1

/-- The subjects that have arrived after an input. -/
def SeedingRun.arrivedAfter (s : SeedingRun) (input : RoomInput) : List Subject :=
  (subjectOf ownUserId input).toList ++ s.arrived

/-- Room state is applied as it arrives; the membership held is applied when a delivery
makes the feeder apply it. -/
def SeedingRun.appliedAfter (s : SeedingRun) (input : RoomInput) : List Subject :=
  let told := s.feeder.onInput dialect ownUserId input
  (subjectOf ownUserId input).toList.filter (· ∈ roomSubjects dialect) ++
    (if told.membershipDirty && told.gateOpen dialect then heldSubjects told else []) ++ s.applied

/-- A step of the feeder, and what it delivered and applied. -/
def SeedingRun.step (s : SeedingRun) (a : ℕ × RoomInput) : Option SeedingRun :=
  (s.feeder.step dialect ownUserId a).map fun feeder =>
    match a.2 with
    | .encryption _ | .members _ | .sticky _ | .state .. =>
        ⟨feeder, s.arrivedAfter ownUserId a.2, s.appliedAfter dialect ownUserId a.2⟩
    | .holdsEnded | .joined .. | .left _ | .observed _ => { s with feeder := feeder }

/-- Seeded means that everything was applied, and no membership is applied before the
room state it depends on. -/
def Sound (s : SeedingRun) : Prop :=
  (s.feeder.seeded → ∀ subject ∈ subjectsFor dialect, subject ∈ s.applied) ∧
    ∀ membership ∈ membershipSubjects dialect, membership ∈ s.applied →
      ∀ subject ∈ roomSubjects dialect, subject ∈ s.applied

instance : DecidablePred (Sound dialect) := fun s =>
  inferInstanceAs (Decidable ((s.feeder.seeded → ∀ subject ∈ subjectsFor dialect, _) ∧ _))

/-- The encryption, the users, a slot type where slots are read and a membership subject
have arrived. -/
def Startable (arrived : List Subject) : Prop :=
  .encryption ∈ arrived ∧ .members ∈ arrived ∧
    (dialect.readsSlots → ∃ type ∈ slotEventTypes, .state type ∈ arrived) ∧
    ∃ subject ∈ membershipSubjects dialect, subject ∈ arrived

instance : DecidablePred (Startable dialect) := fun _ =>
  inferInstanceAs (Decidable (_ ∧ _ ∧ (_ → ∃ type ∈ slotEventTypes, _) ∧ _))

/-- The delivery does not leave a subject missing while what has arrived is startable. -/
def LeavesNoneOut (s : SeedingRun) (a : ℕ × RoomInput) : Prop :=
  Startable dialect (s.arrivedAfter ownUserId a.2) →
    ∀ subject ∈ subjectsFor dialect, subject ∈ s.arrivedAfter ownUserId a.2

instance (s : SeedingRun) (a : ℕ × RoomInput) : Decidable (LeavesNoneOut dialect ownUserId s a) :=
  inferInstanceAs (Decidable (_ → ∀ subject ∈ subjectsFor dialect, _))

end

/-- The feeder's flags and the values it holds are those of the arrivals. -/
structure Recorded (dialect : IngestDialect) (r : RoomFeederRun) (arrived : List Subject) :
    Prop where
  encryption : r.seenEncryption = true ↔ .encryption ∈ arrived
  members : r.seenMembers = true ↔ .members ∈ arrived
  slots : r.seenSlots = true ↔ ∃ type ∈ slotEventTypes, .state type ∈ arrived
  held : ∀ subject,
    subject ∈ heldSubjects r ↔ subject ∈ membershipSubjects dialect ∧ subject ∈ arrived

/-- No membership state type is a spelling of the slot type. -/
def Apart (dialect : IngestDialect) : Prop :=
  ∀ type ∈ dialect.membershipStateEventTypes, type ∉ slotEventTypes

section
variable {dialect : IngestDialect} {ownUserId : String} {r : RoomFeederRun}
  {arrived : List Subject}

theorem mem_heldSubjects_sticky : .sticky ∈ heldSubjects r ↔ r.sticky.isSome = true := by
  unfold heldSubjects
  split_ifs with h <;> simp [h]

theorem mem_heldSubjects_state {type : String} :
    .state type ∈ heldSubjects r ↔ type ∈ r.membershipState.map (·.1) := by
  unfold heldSubjects
  split_ifs <;> simp

theorem membership_of_state {type : String} :
    .state type ∈ membershipSubjects dialect ↔ type ∈ dialect.membershipStateEventTypes := by
  simp [membershipSubjects]

/-- An arrival that no flag and no held value is about changes none of them. -/
theorem recorded_of_ignored {subject : Subject} (h : Recorded dialect r arrived)
    (encryption : subject ≠ .encryption) (members : subject ≠ .members)
    (slots : ∀ type ∈ slotEventTypes, subject ≠ .state type)
    (held : subject ∉ membershipSubjects dialect) : Recorded dialect r (subject :: arrived) where
  encryption := by simp [h.encryption, encryption.symm]
  members := by simp [h.members, members.symm]
  slots := by
    rw [h.slots]
    refine exists_congr fun type => and_congr_right fun slot => ?_
    simp [(slots type slot).symm]
  held := by
    intro other
    rw [h.held other]
    refine and_congr_right fun hother => ?_
    have apart : other ≠ subject := fun same => held (same ▸ hother)
    simp [apart]

theorem held_of_unread (subject : Subject) (h : Recorded dialect r arrived)
    (unread : subject ∉ membershipSubjects dialect) (other : Subject) :
    other ∈ heldSubjects r ↔ other ∈ membershipSubjects dialect ∧ other ∈ subject :: arrived := by
  rw [h.held other]
  refine and_congr_right fun hother => ?_
  have apart : other ≠ subject := fun same => unread (same ▸ hother)
  simp [apart]

/-- Every input is recorded as it is handled. -/
theorem onInput_recorded (ownUserId : String) (apart : Apart dialect)
    (h : Recorded dialect r arrived) (input : RoomInput) :
    Recorded dialect (r.onInput dialect ownUserId input)
      ((subjectOf ownUserId input).toList ++ arrived) := by
  cases input with
  | encryption encrypted =>
      have held := held_of_unread .encryption h (by simp [membershipSubjects])
      refine ⟨by simp [RoomFeederRun.onInput, subjectOf], ?_, ?_, held⟩
      · simpa [RoomFeederRun.onInput, subjectOf] using h.members
      · simpa [RoomFeederRun.onInput, subjectOf] using h.slots
  | members userIds =>
      simp only [RoomFeederRun.onInput, RoomFeederRun.onMembers, subjectOf]
      split_ifs
      · have held := held_of_unread .members h (by simp [membershipSubjects])
        refine ⟨?_, by simp, ?_, held⟩
        · simpa using h.encryption
        · simpa using h.slots
      · exact h
  | sticky events =>
      refine ⟨?_, ?_, ?_, fun subject => ?_⟩
      · simpa [RoomFeederRun.onInput, subjectOf] using h.encryption
      · simpa [RoomFeederRun.onInput, subjectOf] using h.members
      · simpa [RoomFeederRun.onInput, subjectOf] using h.slots
      · by_cases same : subject = .sticky
        · subst same
          simp [mem_heldSubjects_sticky, RoomFeederRun.onInput, subjectOf, membershipSubjects]
        · have kept : subject ∈ heldSubjects (r.onInput dialect ownUserId (.sticky events)) ↔
              subject ∈ heldSubjects r := by
            cases subject with
            | sticky => exact absurd rfl same
            | encryption | members => simp [heldSubjects, RoomFeederRun.onInput]
            | state type => simp [mem_heldSubjects_state, RoomFeederRun.onInput]
          rw [kept, h.held subject]
          simp [subjectOf, same]
  | state type events =>
      simp only [RoomFeederRun.onInput, RoomFeederRun.onState, subjectOf, Option.toList_some,
        List.singleton_append]
      split_ifs with slot membership
      · have unread : .state type ∉ membershipSubjects dialect :=
          fun read => apart type (membership_of_state.mp read) slot
        have held := held_of_unread _ h unread
        refine ⟨?_, ?_, ?_, held⟩
        · simpa using h.encryption
        · simpa using h.members
        · simp only [true_iff]
          exact ⟨type, slot, List.mem_cons_self⟩
      · refine ⟨?_, ?_, ?_, fun subject => ?_⟩
        · simpa using h.encryption
        · simpa using h.members
        · refine h.slots.trans (exists_congr fun other => and_congr_right fun hother => ?_)
          have apart : other ≠ type := fun same => slot (same ▸ hother)
          simp [apart]
        · have before := h.held subject
          cases subject with
          | encryption | members => simp [heldSubjects, membershipSubjects]
          | sticky =>
              simp only [mem_heldSubjects_sticky] at before ⊢
              simpa using before
          | state other =>
              simp only [mem_heldSubjects_state, membership_of_state] at before ⊢
              by_cases same : other = type
              · simp [same, membership]
              · rw [List.mem_cons, Subject.state.injEq, or_iff_right same, ← before]
                simp [same, List.mem_filter]
      · refine recorded_of_ignored h (by simp) (by simp) (fun other hother => ?_) ?_
        · rintro ⟨⟩
          exact slot hother
        · rwa [membership_of_state]
  | holdsEnded | joined | left | observed => exact h

/-- An input makes the membership dirty exactly when it is a membership subject. -/
theorem onInput_dirty (apart : Apart dialect) (input : RoomInput) :
    (r.onInput dialect ownUserId input).membershipDirty = true ↔
      r.membershipDirty = true ∨
        ∃ subject ∈ membershipSubjects dialect, subject ∈ subjectOf ownUserId input := by
  cases input with
  | encryption encrypted => simp [RoomFeederRun.onInput, subjectOf, membershipSubjects]
  | members userIds =>
      simp only [RoomFeederRun.onInput, RoomFeederRun.onMembers, subjectOf]
      split_ifs <;> simp [membershipSubjects]
  | sticky events => simp [RoomFeederRun.onInput, subjectOf, membershipSubjects]
  | state type events =>
      simp only [RoomFeederRun.onInput, RoomFeederRun.onState, subjectOf]
      split_ifs with slot membership
      · have unread : type ∉ dialect.membershipStateEventTypes := fun read => apart type read slot
        simp [membershipSubjects, unread]
      · simp [membershipSubjects, membership]
      · simp [membershipSubjects, membership]
  | holdsEnded | joined | left | observed =>
      simp [RoomFeederRun.onInput, subjectOf]

theorem onInput_seeded (input : RoomInput) :
    (r.onInput dialect ownUserId input).seeded = r.seeded := by
  cases input with
  | members userIds =>
      simp only [RoomFeederRun.onInput, RoomFeederRun.onMembers]
      split_ifs <;> rfl
  | state type events =>
      simp only [RoomFeederRun.onInput, RoomFeederRun.onState]
      split_ifs <;> rfl
  | encryption | sticky | holdsEnded | joined | left | observed => rfl

theorem gateOpen_iff (h : Recorded dialect r arrived) :
    r.gateOpen dialect = true ↔
      .encryption ∈ arrived ∧ .members ∈ arrived ∧
        (dialect.readsSlots → ∃ type ∈ slotEventTypes, .state type ∈ arrived) := by
  simp only [RoomFeederRun.gateOpen, Bool.and_eq_true, h.encryption, h.members, and_assoc]
  refine and_congr_right fun _ => and_congr_right fun _ => ?_
  rw [← h.slots]
  cases dialect.readsSlots <;> simp

end

/-- What every run keeps: the flags are those of the arrivals, the room is seeded once
what has arrived is startable, and everything that arrived by then was applied. -/
structure Accounted (dialect : IngestDialect) (s : SeedingRun) : Prop where
  recorded : Recorded dialect s.feeder s.arrived
  dirty : s.feeder.membershipDirty = true ↔
    s.feeder.seeded = false ∧ ∃ subject ∈ membershipSubjects dialect, subject ∈ s.arrived
  seeded : s.feeder.seeded = true ↔ Startable dialect s.arrived
  room : ∀ subject ∈ roomSubjects dialect, subject ∈ s.applied ↔ subject ∈ s.arrived
  membership : ∀ subject ∈ membershipSubjects dialect,
    subject ∈ s.applied ↔ s.feeder.seeded = true ∧ subject ∈ s.arrived

section
variable {dialect : IngestDialect} {ownUserId : String} {s t : SeedingRun}

theorem roomSubjects_not_membership (apart : Apart dialect) {subject : Subject}
    (room : subject ∈ roomSubjects dialect) : subject ∉ membershipSubjects dialect := by
  intro membership
  cases subject with
  | encryption | members => simp [membershipSubjects] at membership
  | sticky =>
      unfold roomSubjects at room
      split_ifs at room <;> simp at room
  | state type =>
      refine apart type (membership_of_state.mp membership) ?_
      unfold roomSubjects at room
      split_ifs at room
      · simpa using room
      · simp at room

theorem start_accounted (roomId : String) : Accounted dialect (.start roomId) := by
  refine ⟨⟨?_, ?_, ?_, fun subject => ?_⟩, ?_, ?_, fun subject _ => ?_, fun subject _ => ?_⟩ <;>
    simp [SeedingRun.start, RoomFeederRun.start, Startable, heldSubjects]

/-- With everything accounted for, the run is sound exactly when whatever is startable is
complete. -/
theorem sound_iff (h : Accounted dialect s) :
    Sound dialect s ↔ (Startable dialect s.arrived →
      ∀ subject ∈ subjectsFor dialect, subject ∈ s.arrived) := by
  have applied : s.feeder.seeded = true → ∀ subject ∈ subjectsFor dialect,
      (subject ∈ s.applied ↔ subject ∈ s.arrived) := by
    intro seeded subject hs
    obtain room | membership := List.mem_append.mp hs
    · exact h.room subject room
    · rw [h.membership subject membership, and_iff_right seeded]
  constructor
  · rintro ⟨all, -⟩ startable subject hs
    have seeded := h.seeded.mpr startable
    exact (applied seeded subject hs).mp (all seeded subject hs)
  · intro complete
    refine ⟨fun seeded subject hs => ?_, fun membership hm happlied subject hs => ?_⟩
    · exact (applied seeded subject hs).mpr (complete (h.seeded.mp seeded) subject hs)
    · obtain ⟨seeded, -⟩ := (h.membership membership hm).mp happlied
      exact (h.room subject hs).mpr
        (complete (h.seeded.mp seeded) subject (List.mem_append_left _ hs))

theorem mem_arrivedAfter {input : RoomInput} (subject : Subject) :
    subject ∈ s.arrivedAfter ownUserId input ↔
      subject ∈ subjectOf ownUserId input ∨ subject ∈ s.arrived := by
  simp [SeedingRun.arrivedAfter]

theorem startable_arrivedAfter (h : Accounted dialect s) (input : RoomInput)
    (seeded : s.feeder.seeded = true) : Startable dialect (s.arrivedAfter ownUserId input) := by
  obtain ⟨encryption, members, slots, subject, hsubject, here⟩ := h.seeded.mp seeded
  refine ⟨(mem_arrivedAfter _).mpr (.inr encryption), (mem_arrivedAfter _).mpr (.inr members),
    fun reads => ?_, subject, hsubject, (mem_arrivedAfter _).mpr (.inr here)⟩
  obtain ⟨type, slot, arrived⟩ := slots reads
  exact ⟨type, slot, (mem_arrivedAfter _).mpr (.inr arrived)⟩

/-- A room subject is applied as it arrives, a membership subject where the gate is open. -/
theorem mem_appliedAfter {input : RoomInput}
    (recorded : Recorded dialect (s.feeder.onInput dialect ownUserId input)
      (s.arrivedAfter ownUserId input)) (subject : Subject) :
    subject ∈ s.appliedAfter dialect ownUserId input ↔
      (subject ∈ subjectOf ownUserId input ∧ subject ∈ roomSubjects dialect) ∨
      ((s.feeder.onInput dialect ownUserId input).membershipDirty &&
          (s.feeder.onInput dialect ownUserId input).gateOpen dialect) = true ∧
        (subject ∈ membershipSubjects dialect ∧ subject ∈ s.arrivedAfter ownUserId input) ∨
      subject ∈ s.applied := by
  have held : subject ∈ heldSubjects (s.feeder.onInput dialect ownUserId input) ↔
      subject ∈ membershipSubjects dialect ∧ subject ∈ s.arrivedAfter ownUserId input :=
    recorded.held subject
  unfold SeedingRun.appliedAfter
  dsimp only
  split_ifs with applies
  · simp [applies, held]
  · simp [applies]

/-- A delivery keeps the account. -/
theorem deliver_accounted (apart : Apart dialect) (h : Accounted dialect s) (now : ℕ)
    (input : RoomInput) :
    Accounted dialect ⟨s.feeder.deliver dialect ownUserId now input,
      s.arrivedAfter ownUserId input, s.appliedAfter dialect ownUserId input⟩ := by
  have recorded := onInput_recorded ownUserId apart h.recorded input
  have seeded : (s.feeder.onInput dialect ownUserId input).seeded = s.feeder.seeded :=
    onInput_seeded input
  have dirty : (s.feeder.onInput dialect ownUserId input).membershipDirty = true ↔
      (s.feeder.seeded = false ∧ ∃ subject ∈ membershipSubjects dialect, subject ∈ s.arrived) ∨
        ∃ subject ∈ membershipSubjects dialect, subject ∈ subjectOf ownUserId input := by
    rw [onInput_dirty apart, h.dirty]
  have mem_after (subject : Subject) : subject ∈ s.arrivedAfter ownUserId input ↔
      subject ∈ subjectOf ownUserId input ∨ subject ∈ s.arrived := mem_arrivedAfter subject
  have startable : Startable dialect (s.arrivedAfter ownUserId input) ↔
      (s.feeder.onInput dialect ownUserId input).gateOpen dialect = true ∧
        ∃ subject ∈ membershipSubjects dialect,
          subject ∈ s.arrivedAfter ownUserId input := by
    rw [gateOpen_iff recorded]
    simp only [Startable, and_assoc]
    rfl
  have stays : s.feeder.seeded = true → Startable dialect (s.arrivedAfter ownUserId input) :=
    startable_arrivedAfter h input
  have mem_applied := mem_appliedAfter recorded
  unfold RoomFeederRun.deliver
  generalize s.feeder.onInput dialect ownUserId input = told at *
  dsimp only
  split_ifs with applies
  · obtain ⟨isDirty, isOpen⟩ := Bool.and_eq_true_iff.mp applies
    have some_membership : ∃ subject ∈ membershipSubjects dialect,
        subject ∈ s.arrivedAfter ownUserId input := by
      obtain ⟨-, subject, hsubject, here⟩ | ⟨subject, hsubject, here⟩ := dirty.mp isDirty
      · exact ⟨subject, hsubject, (mem_after _).mpr (.inr here)⟩
      · exact ⟨subject, hsubject, (mem_after _).mpr (.inl here)⟩
    refine ⟨⟨recorded.encryption, recorded.members, recorded.slots, recorded.held⟩,
      iff_of_false Bool.false_ne_true (fun both => Bool.noConfusion both.1),
      iff_of_true rfl (startable.mpr ⟨isOpen, some_membership⟩), fun subject hs => ?_,
      fun subject hs => ?_⟩
    · have unread := roomSubjects_not_membership apart hs
      rw [mem_applied, mem_after, h.room subject hs]
      simp [hs, unread]
    · rw [mem_applied]
      have read : subject ∉ roomSubjects dialect :=
        fun room => roomSubjects_not_membership apart room hs
      have earlier : subject ∈ s.applied → subject ∈ s.arrivedAfter ownUserId input :=
        fun happlied => (mem_after _).mpr (.inr ((h.membership subject hs).mp happlied).2)
      simp only [RoomFeederRun.applyMembership, applies, hs, read, and_false, true_and, false_or]
      exact or_iff_left_of_imp earlier
  · have closed : told.membershipDirty = true → told.gateOpen dialect = true → False :=
      fun isDirty isOpen => applies (Bool.and_eq_true_iff.mpr ⟨isDirty, isOpen⟩)
    have pending : (s.feeder.seeded = false ∧
          ∃ subject ∈ membershipSubjects dialect, subject ∈ s.arrivedAfter ownUserId input) →
        told.membershipDirty = true := by
      rintro ⟨before, subject, hsubject, here⟩
      rw [dirty]
      obtain now | earlier := (mem_after subject).mp here
      · exact .inr ⟨subject, hsubject, now⟩
      · exact .inl ⟨before, subject, hsubject, earlier⟩
    have not_read : s.feeder.seeded = true →
        ∀ subject ∈ membershipSubjects dialect, subject ∉ subjectOf ownUserId input :=
      fun before subject hsubject here =>
        closed (dirty.mpr (.inr ⟨subject, hsubject, here⟩)) (startable.mp (stays before)).1
    refine ⟨recorded, ?_, ?_, fun subject hs => ?_, fun subject hs => ?_⟩
    · rw [seeded]
      refine ⟨fun isDirty => ?_, pending⟩
      obtain ⟨before, subject, hsubject, earlier⟩ | ⟨subject, hsubject, here⟩ := dirty.mp isDirty
      · exact ⟨before, subject, hsubject, (mem_after subject).mpr (.inr earlier)⟩
      · refine ⟨?_, subject, hsubject, (mem_after subject).mpr (.inl here)⟩
        by_contra before
        exact not_read (Bool.not_eq_false _ ▸ before) subject hsubject here
    · rw [seeded]
      refine ⟨stays, fun ready => ?_⟩
      obtain ⟨isOpen, some_membership⟩ := startable.mp ready
      by_contra before
      exact closed (pending ⟨Bool.not_eq_true _ ▸ before, some_membership⟩) isOpen
    · rw [mem_applied, mem_after, h.room subject hs]
      simp [hs, applies]
    · have read : subject ∉ roomSubjects dialect :=
        fun room => roomSubjects_not_membership apart room hs
      rw [mem_applied, mem_after, h.membership subject hs, seeded]
      simp only [applies, read, and_false, false_or, Bool.false_eq_true, false_and]
      exact and_congr_right fun before => (or_iff_right (not_read before subject hs)).symm

theorem step_accounted (apart : Apart dialect) (h : Accounted dialect s) {a : ℕ × RoomInput}
    (hstep : s.step dialect ownUserId a = some t) :
    Accounted dialect t ∧ t.arrived = s.arrivedAfter ownUserId a.2 := by
  obtain ⟨now, input⟩ := a
  obtain ⟨feeder, hfeeder, rfl⟩ := Option.map_eq_some_iff.mp hstep
  cases input with
  | encryption | members | sticky | state =>
      cases hfeeder
      exact ⟨deliver_accounted apart h now _, rfl⟩
  | holdsEnded | joined | left | observed =>
      cases hfeeder
      exact ⟨⟨⟨h.recorded.encryption, h.recorded.members, h.recorded.slots, h.recorded.held⟩,
        h.dirty, h.seeded, h.room, h.membership⟩, rfl⟩

end

theorem format_apart (translate : String → List LegacyStateMemberEventIn → List RawStickyEvent)
    (format : MembershipFormat) : Apart (format.dialect translate) := by
  intro type read
  cases format with
  | msc => simp [MembershipFormat.dialect] at read
  | roomState =>
      have named : type = "org.matrix.msc3401.call.member" := by
        simpa [MembershipFormat.dialect] using read
      simp [named, slotEventTypes, slotEventType]

theorem step_total {dialect : IngestDialect} {ownUserId : String} (s : SeedingRun)
    (a : ℕ × RoomInput) : ∃ t, s.step dialect ownUserId a = some t := by
  obtain ⟨now, input⟩ := a
  cases input <;> exact ⟨_, rfl⟩

section Concrete

/-- The slots under the unstable spelling arrive after everything else. -/
def unstableSlotsLast : List (ℕ × RoomInput) :=
  [(0, .encryption false), (0, .members ["@alice:x"]), (0, .state "m.rtc.slot" []),
    (0, .sticky []), (1, .state "org.matrix.msc4143.rtc.slot" [])]

example : Admissible
      (SeedingRun.step (MembershipFormat.roomState.dialect fun _ _ => []) "@alice:x")
      (LeavesNoneOut (MembershipFormat.roomState.dialect fun _ _ => []) "@alice:x") (.start "!r:x")
      [(0, .sticky []), (0, .encryption true), (0, .state "org.matrix.msc3401.call.member" []),
        (0, .members ["@alice:x"])] := by
  decide

end Concrete

end MatrixRtc.SeedingOrder

import Mathlib.Data.List.Dedup
import MatrixRtc.CallEngines
import MatrixRtc.StepRuns

/-!
# Who ranks as speaking

The raw speakers of each report and the damped set that tiles are ranked by. A member whose
raw state moved away from the ranked one gets a timer, and only a timer of the member's
generation applies. Timers are never called off, and the generations of a member start over
when it leaves, so a timer of an earlier stay can meet a later state of its number. Where none
does, nobody ranks as speaking who was not heard for as long as it takes, or stops to rank so
sooner.
-/
namespace MatrixRtc.SpeakerTimers
open Tables StepRuns CallEngines

/-- How long each change is held back, in milliseconds. -/
structure StabilityConfig where
  promote : ℕ
  demote : ℕ
  coalesce : ℕ
  keyGrace : ℕ
deriving DecidableEq, Repr

/-- The message of a timer, and when it is due. -/
structure SpeakerTimer where
  memberId : String
  generation : ℕ
  dueAt : ℕ
deriving DecidableEq, Repr

/-- The ranked speakers, and the raw state of each member. -/
structure Speech where
  speaking : List String
  speakers : Table String SpeakerState

namespace Speech

variable (s : Speech)

def rawOf (memberId : String) : Bool := (s.speakers.lookup memberId).any (·.raw)

/-- `raw_speaking`. -/
def rawSpeaking : List String := (s.speakers.entries.filter (·.2.raw)).map (·.1)

/-- Everyone that a report says something of. -/
def heardOf (raw : List String) : List String := s.speakers.keys ++ raw

def rawChanged (raw : List String) : Bool :=
  (s.heardOf raw).any fun memberId => s.rawOf memberId != raw.contains memberId

/-- How long a member has to speak, or not to, until it counts. -/
def delay (config : StabilityConfig) (raw : Bool) : ℕ :=
  if raw then config.promote else config.demote

/-- The timer that a report arms for a member, whose ranked state it may now have matched. -/
def armTimer (config : StabilityConfig) (raw : List String) (now : ℕ) (memberId : String) :
    Option SpeakerTimer :=
  let was := (s.speakers.lookup memberId).getD ⟨false, 0⟩
  let isRaw := raw.contains memberId
  if was.raw = isRaw ∨ isRaw = s.speaking.contains memberId then none
  else some ⟨memberId, was.generation + 1, now + delay config isRaw⟩

/-- `apply_raw_speakers`, without the tiles. -/
def applyRawSpeakers (config : StabilityConfig) (raw : List String) (now : ℕ) :
    Speech × List SpeakerTimer :=
  ({ s with speakers := (s.heardOf raw).foldl (Actor.hearSpeaker raw) s.speakers },
    (s.heardOf raw).dedup.filterMap (s.armTimer config raw now))

/-- What `remove_member` does to the speakers. -/
def removeMember (memberId : String) : Speech :=
  ⟨s.speaking.filter (· != memberId), s.speakers.erase memberId⟩

/-- `SpeakerTimer`. -/
def speakerTimer (memberId : String) (generation : ℕ) : Speech :=
  match s.speakers.lookup memberId with
  | none => s
  | some state =>
      if state.generation = generation then
        { s with speaking :=
            if state.raw then s.speaking.insert memberId
            else s.speaking.filter (· != memberId) }
      else s

end Speech

def speechOf (a : Actor) : Speech := ⟨a.speaking, a.speakers⟩

theorem speechOf_applyRawSpeakers (a : Actor) (config : StabilityConfig) (raw : List String)
    (now : ℕ) :
    speechOf (a.applyRawSpeakers raw) = ((speechOf a).applyRawSpeakers config raw now).1 := rfl

theorem speechOf_removeMember (a : Actor) (memberId : String) (announce : Option ℕ) :
    speechOf (a.removeMember memberId announce) = (speechOf a).removeMember memberId := rfl

theorem speechOf_speakerTimer (a : Actor) (memberId : String) (generation : ℕ) :
    speechOf (a.speakerTimer memberId generation) =
      (speechOf a).speakerTimer memberId generation := by
  unfold Actor.speakerTimer Speech.speakerTimer
  change _ = match a.speakers.lookup memberId with | none => _ | some state => _
  cases a.speakers.lookup memberId with
  | none => rfl
  | some state =>
      dsimp only
      split_ifs <;> rfl

/-- What hearing of a member leaves of its state. -/
def heardState (raw : List String) (memberId : String) (was : Option SpeakerState) :
    Option SpeakerState :=
  if (was.getD ⟨false, 0⟩).raw = raw.contains memberId then was
  else some ⟨raw.contains memberId, (was.getD ⟨false, 0⟩).generation + 1⟩

theorem heardState_raw (raw : List String) (memberId : String) (was : Option SpeakerState) :
    ((heardState raw memberId was).getD ⟨false, 0⟩).raw = raw.contains memberId := by
  unfold heardState
  split_ifs with same
  · exact same
  · rfl

theorem heardState_again (raw : List String) (memberId : String) (was : Option SpeakerState) :
    heardState raw memberId (heardState raw memberId was) = heardState raw memberId was := by
  conv_lhs => unfold heardState
  exact if_pos (heardState_raw raw memberId was)

theorem lookup_hearSpeaker (raw : List String) (speakers : Table String SpeakerState)
    (heard memberId : String) :
    (Actor.hearSpeaker raw speakers heard).lookup memberId =
      if memberId = heard then heardState raw memberId (speakers.lookup memberId)
      else speakers.lookup memberId := by
  unfold Actor.hearSpeaker heardState
  extract_lets was now
  by_cases same : memberId = heard
  · subst same
    rw [if_pos rfl]
    split_ifs
    · rfl
    · exact AList.lookup_insert _
  · rw [if_neg same]
    split_ifs
    · rfl
    · exact AList.lookup_insert_ne same

theorem lookup_foldl_hearSpeaker (raw : List String) (ids : List String)
    (speakers : Table String SpeakerState) (memberId : String) :
    (ids.foldl (Actor.hearSpeaker raw) speakers).lookup memberId =
      if memberId ∈ ids then heardState raw memberId (speakers.lookup memberId)
      else speakers.lookup memberId := by
  induction ids generalizing speakers with
  | nil => rfl
  | cons heard rest ih =>
      rw [List.foldl_cons, ih, lookup_hearSpeaker]
      by_cases same : memberId = heard
      · rw [if_pos same, heardState_again, ite_self]
        exact (if_pos (List.mem_cons.mpr (.inl same))).symm
      · rw [if_neg same]
        simp [same]

namespace Speech

variable {s : Speech}

/-- What a member's state is after a report. -/
theorem lookup_applyRawSpeakers (config : StabilityConfig) (raw : List String) (now : ℕ)
    (memberId : String) :
    (s.applyRawSpeakers config raw now).1.speakers.lookup memberId =
      heardState raw memberId (s.speakers.lookup memberId) := by
  refine (lookup_foldl_hearSpeaker raw _ _ memberId).trans ?_
  split_ifs with named
  · rfl
  · have unknown : s.speakers.lookup memberId = none := by
      refine AList.lookup_eq_none.mpr fun known => named ?_
      exact List.mem_append_left _ (AList.mem_keys.mp known)
    have unnamed : raw.contains memberId = false := by
      rw [← Bool.not_eq_true, List.contains_iff_mem]
      exact fun inRaw => named (List.mem_append_right _ inRaw)
    rw [unknown, heardState, unnamed]
    rfl

theorem rawOf_eq (memberId : String) :
    s.rawOf memberId = ((s.speakers.lookup memberId).getD ⟨false, 0⟩).raw := by
  unfold rawOf
  cases s.speakers.lookup memberId <;> rfl

theorem rawOf_applyRawSpeakers (config : StabilityConfig) (raw : List String) (now : ℕ)
    (memberId : String) :
    (s.applyRawSpeakers config raw now).1.rawOf memberId = raw.contains memberId := by
  rw [rawOf_eq, lookup_applyRawSpeakers, heardState_raw]

/-- The timers that a report arms. -/
theorem mem_armed {config : StabilityConfig} {raw : List String} {now : ℕ}
    {timer : SpeakerTimer} :
    timer ∈ (s.applyRawSpeakers config raw now).2 ↔
      s.armTimer config raw now timer.memberId = some timer := by
  have own : ∀ {memberId : String}, s.armTimer config raw now memberId = some timer →
      timer.memberId = memberId := by
    intro memberId h
    unfold armTimer at h
    extract_lets was isRaw at h
    split_ifs at h
    cases h
    rfl
  constructor
  · intro h
    obtain ⟨memberId, _, armed⟩ := List.mem_filterMap.mp h
    rwa [own armed]
  · intro h
    refine List.mem_filterMap.mpr ⟨timer.memberId, List.mem_dedup.mpr ?_, h⟩
    by_cases known : timer.memberId ∈ s.speakers
    · exact List.mem_append_left _ (AList.mem_keys.mp known)
    · have fresh : s.speakers.lookup timer.memberId = none := AList.lookup_eq_none.mpr known
      unfold armTimer at h
      rw [fresh] at h
      extract_lets was isRaw at h
      split_ifs at h with idle
      rw [not_or] at idle
      refine List.mem_append_right _ (List.contains_iff_mem.mp ?_)
      simpa [was, isRaw] using Ne.symm idle.1

theorem speaking_removeMember {memberId other : String} :
    other ∈ (s.removeMember memberId).speaking ↔ other ∈ s.speaking ∧ other ≠ memberId := by
  simp [removeMember]

theorem mem_speakerTimer {memberId other : String} {generation : ℕ} :
    other ∈ (s.speakerTimer memberId generation).speaking ↔
      if other = memberId ∧ (s.speakers.lookup memberId).any (·.generation = generation)
      then s.rawOf memberId = true else other ∈ s.speaking := by
  unfold speakerTimer rawOf
  cases lookup : s.speakers.lookup memberId with
  | none => simp
  | some state =>
      by_cases current : state.generation = generation
      · by_cases same : other = memberId
        · cases raw : state.raw <;> simp [current, same, raw]
        · cases raw : state.raw <;> simp [current, same, raw]
      · simp [current]

theorem speakers_speakerTimer {memberId : String} {generation : ℕ} :
    (s.speakerTimer memberId generation).speakers = s.speakers := by
  unfold speakerTimer
  split
  · rfl
  · split_ifs <;> rfl

end Speech

/-- The speakers over a run, with the timers that are still to come and the stay each was armed
in. What was reported is kept beside them: since when each member has been reported to speak,
or not to, without a break in its stay. -/
structure Hearing where
  now : ℕ
  roster : List String
  speech : Speech
  pending : List (SpeakerTimer × ℕ)
  /-- How often a member has left. -/
  stays : String → ℕ
  arrivedAt : String → ℕ
  spokeSince : String → Option ℕ
  silentSince : String → Option ℕ

namespace Hearing

def start : Hearing :=
  { now := 0, roster := [], speech := ⟨[], ∅⟩, pending := [], stays := fun _ => 0
    arrivedAt := fun _ => 0, spokeSince := fun _ => none, silentSince := fun _ => none }

/-- What the speakers meet. -/
inductive Event where
  | report (raw : List String)
  /-- The members of a snapshot: whoever else is on the roster leaves. -/
  | snapshot (memberIds : List String)
  | timer (timer : SpeakerTimer) (stay : ℕ)

variable (h : Hearing)

def report (config : StabilityConfig) (raw : List String) : Hearing :=
  let heard := h.speech.applyRawSpeakers config raw h.now
  { h with
    speech := heard.1
    pending := h.pending ++ heard.2.map fun timer => (timer, h.stays timer.memberId)
    spokeSince := fun m => if m ∈ raw then some ((h.spokeSince m).getD h.now) else none
    silentSince := fun m => if m ∈ raw then none else some ((h.silentSince m).getD h.now) }

/-- The members that leave. -/
def departed (memberIds : List String) : List String :=
  h.roster.filter fun m => !memberIds.contains m

def snapshot (memberIds : List String) : Hearing :=
  let departed := h.departed memberIds
  { h with
    roster := h.roster.filter memberIds.contains ++
      (memberIds.filter fun m => !h.roster.contains m).dedup
    speech := departed.foldl Speech.removeMember h.speech
    stays := fun m => if m ∈ departed then h.stays m + 1 else h.stays m
    arrivedAt := fun m => if m ∈ memberIds ∧ m ∉ h.roster then h.now else h.arrivedAt m
    spokeSince := fun m => if m ∈ departed then none else h.spokeSince m
    silentSince := fun m => if m ∈ departed then none else h.silentSince m }

def timer (timer : SpeakerTimer) (stay : ℕ) : Hearing :=
  { h with
    speech := h.speech.speakerTimer timer.memberId timer.generation
    pending := h.pending.erase (timer, stay) }

def meet (config : StabilityConfig) : Event → Hearing
  | .report raw => h.report config raw
  | .snapshot memberIds => h.snapshot memberIds
  | .timer timer stay => h.timer timer stay

/-- Reports name members of the roster, and a timer comes once it is due. -/
def Possible : Event → Prop
  | .report raw => ∀ m ∈ raw, m ∈ h.roster
  | .snapshot _ => True
  | .timer timer stay => (timer, stay) ∈ h.pending ∧ timer.dueAt ≤ h.now

instance : (event : Event) → Decidable (h.Possible event)
  | .report raw => inferInstanceAs (Decidable (∀ m ∈ raw, m ∈ h.roster))
  | .snapshot _ => isTrue trivial
  | .timer timer stay => inferInstanceAs (Decidable ((timer, stay) ∈ h.pending ∧ _))

/-- An event at a time, which does not run backwards. -/
def step (config : StabilityConfig) (h : Hearing) (x : ℕ × Event) : Option Hearing :=
  let h' := { h with now := x.1 }
  if h.now ≤ x.1 ∧ h'.Possible x.2 then some (h'.meet config x.2) else none

def ranks (memberId : String) : Bool := h.speech.speaking.contains memberId

/-- Since when the raw state of a member is what it is. -/
def changedAt (memberId : String) : Option ℕ :=
  if h.speech.rawOf memberId then h.spokeSince memberId else h.silentSince memberId

/-- Whether a timer is of the generation that its member's state has. -/
def Current (timer : SpeakerTimer) : Prop :=
  (h.speech.speakers.lookup timer.memberId).any (·.generation = timer.generation) = true

/-- No timer of an earlier stay meets a state of its generation that it would change. -/
def Fresh : Event → Prop
  | .timer timer stay => h.Current timer →
      h.speech.rawOf timer.memberId ≠ h.ranks timer.memberId → stay = h.stays timer.memberId
  | _ => True

instance (timer : SpeakerTimer) : Decidable (h.Current timer) :=
  inferInstanceAs (Decidable (_ = true))

instance : (event : Event) → Decidable (h.Fresh event)
  | .timer timer stay => inferInstanceAs (Decidable (h.Current timer →
      h.speech.rawOf timer.memberId ≠ h.ranks timer.memberId → stay = h.stays timer.memberId))
  | .report _ => isTrue trivial
  | .snapshot _ => isTrue trivial

/-- Who ranks as speaking after an event and did not before was reported to speak for as long
as it takes, all of it since its arrival; who stops to was reported not to, or has left. -/
structure Damped (config : StabilityConfig) (h h' : Hearing) : Prop where
  enters : ∀ m, h.ranks m = false → h'.ranks m = true →
    m ∈ h'.roster ∧ ∃ since, h'.spokeSince m = some since ∧ h'.arrivedAt m ≤ since ∧
      since + config.promote ≤ h'.now
  leaves : ∀ m, h.ranks m = true → h'.ranks m = false →
    m ∉ h'.roster ∨ ∃ since, h'.silentSince m = some since ∧ since + config.demote ≤ h'.now

/-- A member whose raw state is not its ranked one has a timer of its generation to come. -/
def Armed (config : StabilityConfig) (h : Hearing) : Prop :=
  ∀ m, h.speech.rawOf m ≠ h.ranks m → ∃ timer stay, (timer, stay) ∈ h.pending ∧
    timer.memberId = m ∧ h.Current timer ∧ ∃ since, h.changedAt m = some since ∧
      timer.dueAt ≤ since + Speech.delay config (h.speech.rawOf m)

structure MemberInv (config : StabilityConfig) (h : Hearing) (m : String) : Prop where
  known : m ∈ h.speech.speakers → m ∈ h.roster
  ranked : h.ranks m = true → m ∈ h.speech.speakers
  spoke : h.speech.rawOf m = true →
    ∃ since, h.spokeSince m = some since ∧ h.arrivedAt m ≤ since
  unspoken : h.speech.rawOf m = false → h.spokeSince m = none
  silent : m ∈ h.speech.speakers → h.speech.rawOf m = false → (h.silentSince m).isSome = true
  loud : h.speech.rawOf m = true → h.silentSince m = none
  arrived : h.arrivedAt m ≤ h.now
  past : ∀ timer stay, (timer, stay) ∈ h.pending → timer.memberId = m → stay ≤ h.stays m
  timers : ∀ timer, (timer, h.stays m) ∈ h.pending → timer.memberId = m →
    ∃ state, h.speech.speakers.lookup m = some state ∧ timer.generation ≤ state.generation ∧
      (timer.generation = state.generation → ∃ since, h.changedAt m = some since ∧
        timer.dueAt = since + Speech.delay config state.raw)
  armed : h.speech.rawOf m ≠ h.ranks m →
    ∃ timer, (timer, h.stays m) ∈ h.pending ∧ timer.memberId = m ∧ h.Current timer

variable {config : StabilityConfig} {h h' : Hearing} {m : String}

theorem memberInv_start (config : StabilityConfig) (m : String) : MemberInv config start m :=
  { known := fun known => absurd known (AList.notMem_empty m)
    ranked := fun ranked => absurd ranked Bool.false_ne_true
    spoke := fun raw => absurd raw Bool.false_ne_true
    unspoken := fun _ => rfl
    silent := fun known => absurd known (AList.notMem_empty m)
    loud := fun raw => absurd raw Bool.false_ne_true
    arrived := le_rfl
    past := fun _ _ pending => absurd pending List.not_mem_nil
    timers := fun _ pending => absurd pending List.not_mem_nil
    armed := fun apart => absurd rfl apart }

theorem MemberInv.later (inv : MemberInv config h m) {now : ℕ} (le : h.now ≤ now) :
    MemberInv config { h with now := now } m :=
  { inv with arrived := inv.arrived.trans le }

theorem mem_speakers_iff {s : Speech} :
    m ∈ s.speakers ↔ ∃ state, s.speakers.lookup m = some state := by
  rw [← Option.isSome_iff_exists, AList.lookup_isSome]

theorem rawOf_of_lookup {s : Speech} {state : SpeakerState}
    (there : s.speakers.lookup m = some state) : s.rawOf m = state.raw := by
  rw [Speech.rawOf, there]
  rfl

theorem mem_speakers_of_rawOf {s : Speech} (raw : s.rawOf m = true) : m ∈ s.speakers := by
  unfold Speech.rawOf at raw
  cases lookup : s.speakers.lookup m with
  | none => simp [lookup] at raw
  | some state => exact mem_speakers_iff.mpr ⟨state, lookup⟩

theorem lookup_report_same {raw : List String} (same : h.speech.rawOf m = raw.contains m) :
    (h.report config raw).speech.speakers.lookup m = h.speech.speakers.lookup m := by
  refine (Speech.lookup_applyRawSpeakers config raw h.now m).trans (if_pos ?_)
  rw [← same, Speech.rawOf_eq]

theorem lookup_report_changed {raw : List String} (changed : h.speech.rawOf m ≠ raw.contains m) :
    (h.report config raw).speech.speakers.lookup m = some ⟨raw.contains m,
      ((h.speech.speakers.lookup m).getD ⟨false, 0⟩).generation + 1⟩ := by
  refine (Speech.lookup_applyRawSpeakers config raw h.now m).trans (if_neg ?_)
  rwa [Speech.rawOf_eq] at changed

theorem rawOf_report (raw : List String) :
    (h.report config raw).speech.rawOf m = raw.contains m :=
  Speech.rawOf_applyRawSpeakers config raw h.now m

/-- The time of the last change stays where the raw state does. -/
theorem changedAt_report_same {raw : List String} (inv : MemberInv config h m)
    (same : h.speech.rawOf m = raw.contains m) (known : m ∈ h.speech.speakers) :
    (h.report config raw).changedAt m = h.changedAt m := by
  unfold changedAt
  rw [rawOf_report, same]
  cases named : raw.contains m with
  | true =>
      obtain ⟨since, spoke, _⟩ := inv.spoke (same.trans named)
      have inRaw : m ∈ raw := List.contains_iff_mem.mp named
      simp [report, inRaw, spoke]
  | false =>
      obtain ⟨since, silent⟩ := Option.isSome_iff_exists.mp (inv.silent known (same.trans named))
      have notInRaw : m ∉ raw := by
        rw [← List.contains_iff_mem, named]
        exact Bool.false_ne_true
      simp [report, notInRaw, silent]

theorem changedAt_report_changed {raw : List String} (inv : MemberInv config h m)
    (changed : h.speech.rawOf m ≠ raw.contains m) :
    (h.report config raw).changedAt m = some h.now := by
  unfold changedAt
  rw [rawOf_report]
  cases named : raw.contains m with
  | true =>
      have quiet : h.speech.rawOf m = false := by
        rwa [named, ne_eq, Bool.not_eq_true] at changed
      have inRaw : m ∈ raw := List.contains_iff_mem.mp named
      simp [report, inRaw, inv.unspoken quiet]
  | false =>
      have heard : h.speech.rawOf m = true := by
        rwa [named, ne_eq, Bool.not_eq_false] at changed
      have notInRaw : m ∉ raw := by
        rw [← List.contains_iff_mem, named]
        exact Bool.false_ne_true
      simp [report, notInRaw, inv.loud heard]

theorem mem_pending_report {raw : List String} {timer : SpeakerTimer} {stay : ℕ} :
    (timer, stay) ∈ (h.report config raw).pending ↔ (timer, stay) ∈ h.pending ∨
      h.speech.armTimer config raw h.now timer.memberId = some timer ∧
        stay = h.stays timer.memberId := by
  refine List.mem_append.trans (or_congr_right ?_)
  rw [List.mem_map]
  constructor
  · rintro ⟨armed, mem, same⟩
    cases same
    exact ⟨Speech.mem_armed.mp mem, rfl⟩
  · rintro ⟨armed, rfl⟩
    exact ⟨timer, Speech.mem_armed.mpr armed, rfl⟩

theorem armTimer_eq_some {s : Speech} {raw : List String} {now : ℕ} {timer : SpeakerTimer} :
    s.armTimer config raw now m = some timer ↔
      s.rawOf m ≠ raw.contains m ∧ raw.contains m ≠ s.speaking.contains m ∧
        timer = ⟨m, ((s.speakers.lookup m).getD ⟨false, 0⟩).generation + 1,
          now + Speech.delay config (raw.contains m)⟩ := by
  rw [Speech.rawOf_eq]
  unfold Speech.armTimer
  extract_lets was isRaw
  split_ifs with idle
  · refine ⟨(nomatch ·), fun ⟨changed, apart, _⟩ => ?_⟩
    exact absurd idle (not_or.mpr ⟨changed, apart⟩)
  · obtain ⟨changed, apart⟩ := not_or.mp idle
    rw [Option.some_inj]
    exact ⟨fun same => ⟨changed, apart, same.symm⟩, fun ⟨_, _, same⟩ => same.symm⟩

theorem memberInv_report {raw : List String} (inv : MemberInv config h m)
    (named : ∀ m ∈ raw, m ∈ h.roster) : MemberInv config (h.report config raw) m where
  known := by
    intro known
    by_cases changed : h.speech.rawOf m = raw.contains m
    · obtain ⟨state, there⟩ := mem_speakers_iff.mp known
      rw [lookup_report_same changed] at there
      exact inv.known (mem_speakers_iff.mpr ⟨state, there⟩)
    · by_cases inRaw : m ∈ raw
      · exact named m inRaw
      · have unnamed : raw.contains m = false := by simpa using inRaw
        rw [unnamed, Bool.not_eq_false] at changed
        exact inv.known (mem_speakers_of_rawOf changed)
  ranked := by
    intro ranked
    obtain ⟨state, there⟩ := mem_speakers_iff.mp (inv.ranked ranked)
    by_cases changed : h.speech.rawOf m = raw.contains m
    · exact mem_speakers_iff.mpr ⟨state, (lookup_report_same changed).trans there⟩
    · exact mem_speakers_iff.mpr ⟨_, lookup_report_changed changed⟩
  spoke := by
    intro heard
    rw [rawOf_report, List.contains_iff_mem] at heard
    refine ⟨(h.spokeSince m).getD h.now, if_pos heard, ?_⟩
    cases before : h.speech.rawOf m with
    | true =>
        obtain ⟨since, spoke, arrived⟩ := inv.spoke before
        rw [spoke]
        exact arrived
    | false =>
        rw [inv.unspoken before]
        exact inv.arrived
  unspoken := by
    intro quiet
    rw [rawOf_report] at quiet
    exact if_neg (by simpa using quiet)
  silent := by
    intro _ quiet
    rw [rawOf_report] at quiet
    have notInRaw : m ∉ raw := by simpa using quiet
    simp [report, notInRaw]
  loud := by
    intro heard
    rw [rawOf_report, List.contains_iff_mem] at heard
    exact if_pos heard
  arrived := inv.arrived
  past := by
    intro timer stay pending own
    rcases mem_pending_report.mp pending with before | ⟨_, rfl⟩
    · exact inv.past timer stay before own
    · rw [own]
      exact le_rfl
  timers := by
    intro timer pending own
    rcases mem_pending_report.mp pending with before | ⟨armed, _⟩
    · obtain ⟨state, there, older, due⟩ := inv.timers timer before own
      by_cases changed : h.speech.rawOf m = raw.contains m
      · refine ⟨state, (lookup_report_same changed).trans there, older, fun current => ?_⟩
        rw [changedAt_report_same inv changed (mem_speakers_iff.mpr ⟨state, there⟩)]
        exact due current
      · refine ⟨_, lookup_report_changed changed, ?_, ?_⟩
        · rw [there]
          exact older.trans (Nat.le_succ _)
        · intro current
          rw [there] at current
          exact absurd older (by simp [current])
    · rw [own] at armed
      obtain ⟨changed, _, rfl⟩ := armTimer_eq_some.mp armed
      refine ⟨_, lookup_report_changed changed, le_rfl, fun _ => ?_⟩
      exact ⟨h.now, changedAt_report_changed inv changed, rfl⟩
  armed := by
    intro apart
    rw [rawOf_report] at apart
    by_cases changed : h.speech.rawOf m = raw.contains m
    · obtain ⟨timer, pending, own, current⟩ := inv.armed (by rwa [changed])
      refine ⟨timer, mem_pending_report.mpr (.inl pending), own, ?_⟩
      unfold Current at current ⊢
      rw [own] at current ⊢
      rwa [lookup_report_same changed]
    · let timer : SpeakerTimer := ⟨m,
        ((h.speech.speakers.lookup m).getD ⟨false, 0⟩).generation + 1,
        h.now + Speech.delay config (raw.contains m)⟩
      have armed : h.speech.armTimer config raw h.now m = some timer :=
        armTimer_eq_some.mpr ⟨changed, apart, rfl⟩
      refine ⟨timer, mem_pending_report.mpr (.inr ⟨armed, rfl⟩), rfl, ?_⟩
      unfold Current
      rw [lookup_report_changed changed]
      exact decide_eq_true rfl

theorem foldl_removeMember (departed : List String) (s : Speech) (m : String) :
    (departed.foldl Speech.removeMember s).speakers.lookup m =
        (if m ∈ departed then none else s.speakers.lookup m) ∧
      (m ∈ (departed.foldl Speech.removeMember s).speaking ↔ m ∈ s.speaking ∧ m ∉ departed) := by
  induction departed generalizing s with
  | nil => simp
  | cons gone rest ih =>
      rw [List.foldl_cons]
      obtain ⟨lookup, speaking⟩ := ih (s.removeMember gone)
      constructor
      · rw [lookup]
        by_cases same : m = gone
        · subst same
          simp [Speech.removeMember]
        · simp [same, Speech.removeMember, AList.lookup_erase_ne same]
      · rw [speaking, Speech.speaking_removeMember, List.mem_cons, not_or, and_assoc]

theorem mem_departed {memberIds : List String} :
    m ∈ h.departed memberIds ↔ m ∈ h.roster ∧ m ∉ memberIds := by
  simp [departed]

theorem mem_roster_snapshot {memberIds : List String} :
    m ∈ (h.snapshot memberIds).roster ↔ m ∈ memberIds := by
  by_cases there : m ∈ h.roster <;> simp [snapshot, there]

/-- Who leaves is forgotten. -/
theorem memberInv_departed {memberIds : List String} (inv : MemberInv config h m)
    (gone : m ∈ h.departed memberIds) : MemberInv config (h.snapshot memberIds) m := by
  obtain ⟨lookup, speaking⟩ := foldl_removeMember (h.departed memberIds) h.speech m
  rw [if_pos gone] at lookup
  have unknown : m ∉ (h.snapshot memberIds).speech.speakers := AList.lookup_eq_none.mp lookup
  have quiet : (h.snapshot memberIds).speech.rawOf m = false := by
    rw [← Bool.not_eq_true]
    exact fun raw => unknown (mem_speakers_of_rawOf raw)
  have unranked : (h.snapshot memberIds).ranks m = false := by
    rw [ranks, ← Bool.not_eq_true, List.contains_iff_mem]
    exact fun ranked => (speaking.mp ranked).2 gone
  have left : (h.snapshot memberIds).stays m = h.stays m + 1 := if_pos gone
  have notThere : ¬(m ∈ memberIds ∧ m ∉ h.roster) := fun both => both.2 (mem_departed.mp gone).1
  exact
    { known := fun known => absurd known unknown
      ranked := fun ranked => absurd (unranked.symm.trans ranked) Bool.false_ne_true
      spoke := fun raw => absurd (quiet.symm.trans raw) Bool.false_ne_true
      unspoken := fun _ => if_pos gone
      silent := fun known => absurd known unknown
      loud := fun raw => absurd (quiet.symm.trans raw) Bool.false_ne_true
      arrived := (if_neg notThere).trans_le inv.arrived
      past := fun timer stay pending own =>
        (inv.past timer stay pending own).trans ((Nat.le_succ _).trans_eq left.symm)
      timers := fun timer pending own =>
        absurd (left.symm.trans_le (inv.past timer _ pending own)) (Nat.not_succ_le_self _)
      armed := fun apart => absurd (quiet.trans unranked.symm) apart }

/-- Who stays, or comes, keeps what is known of it. -/
theorem memberInv_kept {memberIds : List String} (inv : MemberInv config h m)
    (kept : m ∉ h.departed memberIds) : MemberInv config (h.snapshot memberIds) m := by
  obtain ⟨lookup, speaking⟩ := foldl_removeMember (h.departed memberIds) h.speech m
  rw [if_neg kept] at lookup
  have known : m ∈ (h.snapshot memberIds).speech.speakers ↔ m ∈ h.speech.speakers := by
    rw [mem_speakers_iff, mem_speakers_iff]
    exact exists_congr fun state => by rw [← lookup]; rfl
  have raw : (h.snapshot memberIds).speech.rawOf m = h.speech.rawOf m :=
    congrArg (Option.any SpeakerState.raw) lookup
  have ranked : (h.snapshot memberIds).ranks m = h.ranks m := by
    rw [ranks, ranks, Bool.eq_iff_iff, List.contains_iff_mem, List.contains_iff_mem]
    exact speaking.trans (and_iff_left kept)
  have stays : (h.snapshot memberIds).stays m = h.stays m := if_neg kept
  have spoke : (h.snapshot memberIds).spokeSince m = h.spokeSince m := if_neg kept
  have silent : (h.snapshot memberIds).silentSince m = h.silentSince m := if_neg kept
  have changed : (h.snapshot memberIds).changedAt m = h.changedAt m := by
    rw [changedAt, changedAt, raw, spoke, silent]
  exact
    { known := by
        intro here
        have before := inv.known (known.mp here)
        refine mem_roster_snapshot.mpr ?_
        by_contra gone
        exact kept (mem_departed.mpr ⟨before, gone⟩)
      ranked := fun here => known.mpr (inv.ranked (ranked.symm.trans here))
      spoke := by
        intro heard
        rw [raw] at heard
        obtain ⟨since, spokeThen, arrived⟩ := inv.spoke heard
        have onRoster := inv.known (mem_speakers_of_rawOf heard)
        refine ⟨since, spoke.trans spokeThen, ?_⟩
        exact (if_neg fun both : m ∈ memberIds ∧ m ∉ h.roster => both.2 onRoster).trans_le arrived
      unspoken := fun quiet => spoke.trans (inv.unspoken (raw.symm.trans quiet))
      silent := by
        intro here quiet
        rw [silent]
        exact inv.silent (known.mp here) (raw.symm.trans quiet)
      loud := fun heard => silent.trans (inv.loud (raw.symm.trans heard))
      arrived := by
        change (if _ then _ else _) ≤ h.now
        split_ifs
        · exact le_rfl
        · exact inv.arrived
      past := by
        intro timer stay pending own
        rw [stays]
        exact inv.past timer stay pending own
      timers := by
        intro timer pending own
        rw [stays] at pending
        obtain ⟨state, there, older, due⟩ := inv.timers timer pending own
        refine ⟨state, lookup.trans there, older, ?_⟩
        rwa [changed]
      armed := by
        intro apart
        rw [raw, ranked] at apart
        obtain ⟨timer, pending, own, current⟩ := inv.armed apart
        refine ⟨timer, by rwa [stays], own, ?_⟩
        unfold Current at current ⊢
        rw [own] at current ⊢
        exact (congrArg (Option.any _) lookup).trans current }

theorem memberInv_snapshot {memberIds : List String} (inv : MemberInv config h m) :
    MemberInv config (h.snapshot memberIds) m := by
  by_cases gone : m ∈ h.departed memberIds
  · exact memberInv_departed inv gone
  · exact memberInv_kept inv gone

theorem ranks_timer {timer : SpeakerTimer} {stay : ℕ} :
    (h.timer timer stay).ranks m =
      if m = timer.memberId ∧
          (h.speech.speakers.lookup timer.memberId).any (·.generation = timer.generation) = true
      then h.speech.rawOf timer.memberId else h.ranks m := by
  rw [ranks, Bool.eq_iff_iff, List.contains_iff_mem]
  refine Speech.mem_speakerTimer.trans ?_
  split_ifs
  · rfl
  · exact List.contains_iff_mem.symm

theorem speakers_timer {timer : SpeakerTimer} {stay : ℕ} :
    (h.timer timer stay).speech.speakers = h.speech.speakers := Speech.speakers_speakerTimer

theorem memberInv_timer {timer : SpeakerTimer} {stay : ℕ} (inv : MemberInv config h m) :
    MemberInv config (h.timer timer stay) m := by
  have speakers : (h.timer timer stay).speech.speakers = h.speech.speakers := speakers_timer
  have raw : (h.timer timer stay).speech.rawOf m = h.speech.rawOf m := by
    rw [Speech.rawOf, Speech.rawOf, speakers]
  have changed : (h.timer timer stay).changedAt m = h.changedAt m := by
    rw [changedAt, changedAt, raw]
    rfl
  exact
    { known := by rw [speakers]; exact inv.known
      ranked := by
        rw [speakers, ranks_timer]
        split_ifs with current
        · rw [← current.1]
          exact mem_speakers_of_rawOf
        · exact inv.ranked
      spoke := by rw [raw]; exact inv.spoke
      unspoken := by rw [raw]; exact inv.unspoken
      silent := by rw [speakers, raw]; exact inv.silent
      loud := by rw [raw]; exact inv.loud
      arrived := inv.arrived
      past := fun t stay pending => inv.past t stay (List.mem_of_mem_erase pending)
      timers := by
        intro t pending own
        rw [speakers, changed]
        exact inv.timers t (List.mem_of_mem_erase pending) own
      armed := by
        rw [raw, ranks_timer]
        intro apart
        split_ifs at apart with current
        · exact absurd (congrArg h.speech.rawOf current.1) apart
        · obtain ⟨t, pending, own, its⟩ := inv.armed apart
          refine ⟨t, (List.mem_erase_of_ne ?_).mpr pending, own, ?_⟩
          · intro same
            have one : t = timer := congrArg Prod.fst same
            subst one
            exact current ⟨own.symm, its⟩
          · unfold Current
            rw [speakers]
            exact its }

theorem step_eq_some {x : ℕ × Event} :
    step config h x = some h' ↔ h.now ≤ x.1 ∧ { h with now := x.1 }.Possible x.2 ∧
      { h with now := x.1 }.meet config x.2 = h' := by
  unfold step
  extract_lets later
  split_ifs with possible
  · rw [Option.some_inj, ← and_assoc, iff_and_self]
    exact fun _ => possible
  · exact ⟨(nomatch ·), fun ⟨le, can, _⟩ => absurd ⟨le, can⟩ possible⟩

theorem memberInv_meet {event : Event} (inv : MemberInv config h m)
    (possible : h.Possible event) : MemberInv config (h.meet config event) m := by
  cases event with
  | report raw => exact memberInv_report inv possible
  | snapshot memberIds => exact memberInv_snapshot inv
  | timer timer stay => exact memberInv_timer inv

theorem memberInv_step {x : ℕ × Event} (inv : ∀ m, MemberInv config h m)
    (turn : step config h x = some h') : ∀ m, MemberInv config h' m := by
  intro m
  obtain ⟨le, possible, rfl⟩ := step_eq_some.mp turn
  exact memberInv_meet ((inv m).later le) possible

theorem armed_of_inv (inv : ∀ m, MemberInv config h m) : Armed config h := by
  intro m apart
  obtain ⟨timer, pending, own, current⟩ := (inv m).armed apart
  obtain ⟨state, there, _, due⟩ := (inv m).timers timer pending own
  have same : state.generation = timer.generation := by
    unfold Current at current
    rw [own, there] at current
    exact of_decide_eq_true current
  obtain ⟨since, changed, dueAt⟩ := due same.symm
  refine ⟨timer, _, pending, own, current, since, changed, ?_⟩
  rw [rawOf_of_lookup there]
  exact dueAt.le

/-- When a timer of this stay applies, what it makes of its member has held for as long as it
takes. -/
theorem due_of_timer {timer : SpeakerTimer} (inv : MemberInv config h timer.memberId)
    (pending : (timer, h.stays timer.memberId) ∈ h.pending) (due : timer.dueAt ≤ h.now)
    (current : h.Current timer) : ∃ since, h.changedAt timer.memberId = some since ∧
      since + Speech.delay config (h.speech.rawOf timer.memberId) ≤ h.now := by
  obtain ⟨state, there, _, dueAt⟩ := inv.timers timer pending rfl
  have same : state.generation = timer.generation := by
    unfold Current at current
    rw [there] at current
    exact of_decide_eq_true current
  obtain ⟨since, changed, at_⟩ := dueAt same.symm
  refine ⟨since, changed, ?_⟩
  rw [rawOf_of_lookup there, ← at_]
  exact due

theorem damped_timer {timer : SpeakerTimer} {stay : ℕ} (inv : ∀ m, MemberInv config h m)
    (possible : h.Possible (.timer timer stay)) (fresh : h.Fresh (.timer timer stay)) :
    Damped config h (h.timer timer stay) where
  enters := by
    intro m before after
    rw [ranks_timer] at after
    split_ifs at after with current
    · obtain ⟨rfl, current⟩ := current
      have stays := fresh current (by rw [before, after]; exact Bool.false_ne_true.symm)
      rw [stays] at possible
      obtain ⟨since, changed, due⟩ := due_of_timer (inv timer.memberId) possible.1 possible.2
        current
      obtain ⟨since', spoke, arrived⟩ := (inv timer.memberId).spoke after
      rw [changedAt, if_pos after, spoke] at changed
      cases changed
      rw [after] at due
      exact ⟨(inv timer.memberId).known (mem_speakers_of_rawOf after), since, spoke, arrived, due⟩
    · exact absurd (before.symm.trans after) Bool.false_ne_true
  leaves := by
    intro m before after
    rw [ranks_timer] at after
    split_ifs at after with current
    · obtain ⟨rfl, current⟩ := current
      have stays := fresh current (by rw [before, after]; exact Bool.false_ne_true)
      rw [stays] at possible
      obtain ⟨since, changed, due⟩ := due_of_timer (inv timer.memberId) possible.1 possible.2
        current
      rw [changedAt, after, if_neg Bool.false_ne_true] at changed
      rw [after] at due
      exact .inr ⟨since, changed, due⟩
    · exact absurd (before.symm.trans after) Bool.true_eq_false.mp

theorem damped_snapshot (memberIds : List String) :
    Damped config h (h.snapshot memberIds) where
  enters := by
    intro m before after
    rw [ranks, List.contains_iff_mem] at after
    have ranked := ((foldl_removeMember _ h.speech m).2.mp after).1
    rw [ranks, ← Bool.not_eq_true, List.contains_iff_mem] at before
    exact absurd ranked before
  leaves := by
    intro m before after
    refine .inl fun there => ?_
    rw [ranks, ← Bool.not_eq_true, List.contains_iff_mem] at after
    rw [ranks, List.contains_iff_mem] at before
    refine after ((foldl_removeMember _ h.speech m).2.mpr ⟨before, fun gone => ?_⟩)
    exact (mem_departed.mp gone).2 (mem_roster_snapshot.mp there)

theorem damped_meet {event : Event} (inv : ∀ m, MemberInv config h m)
    (possible : h.Possible event) (fresh : h.Fresh event) :
    Damped config h (h.meet config event) := by
  cases event with
  | report raw =>
      -- a report arms timers, and leaves the ranks to them
      exact ⟨fun _ before after => absurd (before.symm.trans after) Bool.false_ne_true,
        fun _ before after => absurd (after.symm.trans before) Bool.false_ne_true⟩
  | snapshot memberIds => exact damped_snapshot memberIds
  | timer timer stay => exact damped_timer inv possible fresh

theorem Fresh.later {event : Event} {now : ℕ} (fresh : h.Fresh event) :
    { h with now := now }.Fresh event := by
  cases event <;> exact fresh

/-- The condition of a step is one on the state before it. -/
def FreshAt (h : Hearing) (x : ℕ × Event) : Prop := h.Fresh x.2

instance (h : Hearing) (x : ℕ × Event) : Decidable (FreshAt h x) :=
  inferInstanceAs (Decidable (h.Fresh x.2))

/-- Where no timer of an earlier stay meets a state of its generation that it would change,
every change of the ranks is damped, and every member that is to change has its timer. -/
theorem ranks_damped {events : List (ℕ × Event)} {x : ℕ × Event}
    (admissible : Admissible (step config) FreshAt start (events ++ [x]))
    (before : run (step config) start events = some h) (turn : step config h x = some h') :
    Damped config h h' ∧ Armed config h' := by
  have inv := run_invariant_of_step (I := fun h => ∀ m, MemberInv config h m)
    (fun _ _ _ => memberInv_step) (memberInv_start config) before
  have fresh : h.Fresh x.2 := (admissible.append before).2.1
  obtain ⟨le, possible, rfl⟩ := step_eq_some.mp turn
  refine ⟨?_, armed_of_inv (memberInv_step inv turn)⟩
  have later : { h with now := x.1 }.Fresh x.2 := fresh.later
  have damped := damped_meet (fun m => (inv m).later le) possible later
  exact ⟨damped.enters, damped.leaves⟩

/-- The delays of a call that sets none. -/
def stability : StabilityConfig := ⟨1500, 1500, 300, 4000⟩

/-- Bob comes and speaks. -/
def bobSpeaks : List (ℕ × Event) := [(0, .snapshot ["bob"]), (0, .report ["bob"])]

/-- His timer ranks him as speaking. -/
theorem ranks_damped_bob : ∃ h h', run (step stability) start bobSpeaks = some h ∧
    step stability h (1500, .timer ⟨"bob", 1, 1500⟩ 0) = some h' ∧ h'.ranks "bob" = true ∧
    Damped stability h h' ∧ Armed stability h' :=
  ⟨_, _, rfl, rfl, by decide, @ranks_damped stability _ _ bobSpeaks
    (1500, .timer ⟨"bob", 1, 1500⟩ 0) (by decide) rfl rfl⟩

/-- He leaves and is back, and has spoken for a tenth of a second when the timer of his first
stay is due. -/
def bobReturns : List (ℕ × Event) :=
  bobSpeaks ++ [(100, .snapshot []), (200, .snapshot ["bob"]), (1400, .report ["bob"])]

theorem returned_bob_early : ¬∀ (config : StabilityConfig) (events : List (ℕ × Event))
    (x : ℕ × Event) (h h' : Hearing), run (step config) start events = some h →
    step config h x = some h' → Damped config h h' ∧ Armed config h' := by
  intro damped
  have early := (damped stability bobReturns (1500, .timer ⟨"bob", 1, 1500⟩ 0) _ _ rfl rfl).1
  obtain ⟨_, since, spoke, _, due⟩ := early.enters "bob" (by decide) (by decide)
  cases Option.some.inj spoke
  exact absurd due (by decide)

end Hearing

end MatrixRtc.SpeakerTimers

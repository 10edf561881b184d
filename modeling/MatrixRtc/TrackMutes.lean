import MatrixRtc.StepRuns
import MatrixRtc.ListPlaces

/-!
# The mute of a local track

`publish_on` reads the mute, publishes a new track with it, and records the track once
the room has answered. `set_muted` stores the mute, then looks up the track recorded,
then mutes it. Reconnects and take-overs give the handle another room, on which the
publication is published anew. Every access and the await are steps of their own.
-/
namespace MatrixRtc.TrackMutes
open StepRuns

/-- Where a `publish_on` stands. -/
inductive Point where
  | publishing
  | recording
  | recorded
  | failed
deriving DecidableEq, Repr

/-- A track created by a `publish_on`, with the mute it has. -/
structure LocalTrack where
  room : ℕ
  muted : Bool
  point : Point
deriving DecidableEq, Repr

/-- Where a `set_muted` stands, and the track it has looked up. -/
inductive MutePoint where
  | stored
  | found (track : ℕ)
  | returned
deriving DecidableEq, Repr

structure MuteCall where
  muted : Bool
  point : MutePoint
deriving DecidableEq, Repr

/-- One publication of ours; its rooms are numbered as the handle is given them. -/
structure System where
  muted : Bool
  published : Option ℕ
  rooms : ℕ
  tracks : List LocalTrack
  calls : List MuteCall
  /-- what the last `set_muted` that returned said, or the options of the publish -/
  said : Bool

inductive Action where
  | install
  | publishOn (room : ℕ)
  | answered (i : ℕ) (ok : Bool)
  | record (i : ℕ)
  | setMuted (muted : Bool)
  | currentTrack (j : ℕ)
  | apply (j : ℕ)

def LocalTrack.mute (t : LocalTrack) (muted : Bool) : LocalTrack := { t with muted := muted }

namespace System

/-- The handle is on this room. -/
def OnCurrent (s : System) (t : LocalTrack) : Prop := t.room + 1 = s.rooms

instance (s : System) (t : LocalTrack) : Decidable (s.OnCurrent t) :=
  inferInstanceAs (Decidable (_ = _))

/-- The SFU of the handle's room has the track. -/
def Live (s : System) (t : LocalTrack) : Prop :=
  s.OnCurrent t ∧ (t.point = .recording ∨ t.point = .recorded)

instance (s : System) (t : LocalTrack) : Decidable (s.Live t) :=
  inferInstanceAs (Decidable (_ ∧ (_ ∨ _)))

def moveTrack (s : System) (i : ℕ) (t : LocalTrack) (point : Point) : System :=
  { s with tracks := s.tracks.set i { t with point := point } }

def moveCall (s : System) (j : ℕ) (c : MuteCall) (point : MutePoint) : System :=
  { s with calls := s.calls.set j { c with point := point } }

end System

def step (s : System) : Action → Option System
  | .install => some { s with rooms := s.rooms + 1 }
  | .publishOn room =>
      if room < s.rooms then
        some { s with tracks := s.tracks ++ [⟨room, s.muted, .publishing⟩] }
      else none
  | .answered i ok =>
      match s.tracks[i]? with
      | some ⟨room, muted, .publishing⟩ =>
          some (s.moveTrack i ⟨room, muted, .publishing⟩ (if ok then .recording else .failed))
      | _ => none
  | .record i =>
      match s.tracks[i]? with
      | some ⟨room, muted, .recording⟩ =>
          some { s.moveTrack i ⟨room, muted, .recording⟩ .recorded with published := some i }
      | _ => none
  | .setMuted muted => some { s with muted := muted, calls := s.calls ++ [⟨muted, .stored⟩] }
  | .currentTrack j =>
      match s.calls[j]? with
      | some ⟨muted, .stored⟩ =>
          match s.published with
          | none => some { s.moveCall j ⟨muted, .stored⟩ .returned with said := muted }
          | some i => some (s.moveCall j ⟨muted, .stored⟩ (.found i))
      | _ => none
  | .apply j =>
      match s.calls[j]? with
      | some ⟨muted, .found i⟩ =>
          some { s.moveCall j ⟨muted, .found i⟩ .returned with
            tracks := s.tracks.modify i fun t => t.mute muted
            said := muted }
      | _ => none

/-- A publication just made, before any room. -/
def start (muted : Bool) : System where
  muted := muted
  published := none
  rooms := 0
  tracks := []
  calls := []
  said := muted

def InProgress (c : MuteCall) : Prop := c.point ≠ .returned

instance : DecidablePred InProgress := fun _ => inferInstanceAs (Decidable (_ ≠ _))

/-- A `publish_on` that has read the mute and not recorded its track. -/
def Publishing (t : LocalTrack) : Prop := t.point = .publishing ∨ t.point = .recording

instance : DecidablePred Publishing := fun _ => inferInstanceAs (Decidable (_ ∨ _))

/-- The track has the mute last said, or one being said. -/
def AsSaid (s : System) (t : LocalTrack) : Prop :=
  t.muted = s.said ∨ ∃ c ∈ s.calls, InProgress c ∧ t.muted = c.muted

instance (s : System) : DecidablePred (AsSaid s) := fun _ =>
  inferInstanceAs (Decidable (_ ∨ ∃ c ∈ s.calls, _))

/-- Once no `publish_on` is in progress the track on the handle's room is muted as said;
and after a mute has returned no track stays live and unmuted. -/
structure MuteKept (s : System) : Prop where
  kept : (∀ t ∈ s.tracks, ¬ Publishing t) → ∀ t ∈ s.tracks, s.Live t → AsSaid s t
  silent : s.said = true → (∀ c ∈ s.calls, ¬ InProgress c) →
    ∀ t ∈ s.tracks, s.Live t → t.muted = true

/-- The publication goes out once on the handle's room, and is recorded there last; one
`set_muted` runs at a time, and looks the track up when no `publish_on` of that room is in
progress with another mute. -/
def InTurn (s : System) : Action → Prop
  | .publishOn room => room + 1 = s.rooms → ∀ t ∈ s.tracks, t.room = room → t.point = .failed
  | .record i => ∀ t ∈ s.tracks[i]?, ∀ k ∈ s.published, ∀ p ∈ s.tracks[k]?, p.room ≤ t.room
  | .setMuted _ => ∀ c ∈ s.calls, ¬ InProgress c
  | .currentTrack j => ∀ c ∈ s.calls[j]?, ∀ t ∈ s.tracks, s.OnCurrent t → Publishing t →
      t.muted = c.muted
  | .install | .answered _ _ | .apply _ => True

instance (s : System) : DecidablePred (InTurn s)
  | .publishOn room => inferInstanceAs (Decidable (room + 1 = s.rooms → ∀ t ∈ s.tracks, _ → _))
  | .record i => inferInstanceAs (Decidable (∀ t ∈ s.tracks[i]?, ∀ k ∈ s.published,
      ∀ p ∈ s.tracks[k]?, p.room ≤ t.room))
  | .setMuted _ => inferInstanceAs (Decidable (∀ c ∈ s.calls, _))
  | .currentTrack j => inferInstanceAs (Decidable (∀ c ∈ s.calls[j]?, ∀ t ∈ s.tracks,
      s.OnCurrent t → Publishing t → t.muted = c.muted))
  | .install | .answered _ _ | .apply _ => isTrue trivial

/-- The track is, or is about to be, the publication's on the handle's room. -/
def Standing (s : System) (t : LocalTrack) : Prop :=
  s.OnCurrent t ∧ t.point ≠ .failed

theorem standing_of_live {s : System} {t : LocalTrack} (live : s.Live t) : Standing s t := by
  obtain ⟨current, point | point⟩ := live
  · exact ⟨current, by simp [point]⟩
  · exact ⟨current, by simp [point]⟩

theorem onCurrent_of_room {s : System} {t u : LocalTrack} (same : t.room = u.room)
    (current : s.OnCurrent t) : s.OnCurrent u := by
  rw [System.OnCurrent, ← same]
  exact current

/-- What the tracks, the record and the calls of `set_muted` have to do with each other. -/
structure Inv (s : System) : Prop where
  rooms : ∀ t ∈ s.tracks, t.room < s.rooms
  one : ∀ (i j : ℕ) (t u : LocalTrack), s.tracks[i]? = some t → s.tracks[j]? = some u →
    Standing s t → Standing s u → i = j
  latest : ∀ (i : ℕ) (t : LocalTrack), s.tracks[i]? = some t → s.OnCurrent t →
    t.point = .recorded → s.published = some i
  published : ∀ k : ℕ, s.published = some k → ∃ p, s.tracks[k]? = some p
  alone : ∀ (i j : ℕ) (c d : MuteCall), s.calls[i]? = some c → s.calls[j]? = some d →
    InProgress c → InProgress d → i = j
  idle : (∀ c ∈ s.calls, ¬ InProgress c) → s.muted = s.said
  saying : ∀ c ∈ s.calls, InProgress c → s.muted = c.muted
  kept : ∀ t ∈ s.tracks, Standing s t → AsSaid s t
  found : ∀ c ∈ s.calls, ∀ i, c.point = .found i → ∀ (k : ℕ) (t : LocalTrack),
    s.tracks[k]? = some t → Standing s t → k ≠ i → t.muted = c.muted

section Steps
variable {s : System} {i j : ℕ}

theorem Inv.asSaid_muted (inv : Inv s) {t : LocalTrack} (same : t.muted = s.muted) :
    AsSaid s t := by
  by_cases busy : ∃ c ∈ s.calls, InProgress c
  · obtain ⟨c, member, inProgress⟩ := busy
    exact Or.inr ⟨c, member, inProgress, same.trans (inv.saying c member inProgress)⟩
  · left
    rw [same]
    apply inv.idle
    intro c member inProgress
    exact busy ⟨c, member, inProgress⟩

/-- The handle is given a room on which nothing of ours is. -/
theorem Inv.install (inv : Inv s) : Inv { s with rooms := s.rooms + 1 } := by
  have none_yet : ∀ t ∈ s.tracks, ¬ System.OnCurrent { s with rooms := s.rooms + 1 } t := by
    intro t member current
    have before := inv.rooms t member
    have eq : t.room + 1 = s.rooms + 1 := current
    omega
  constructor
  · intro t member
    exact Nat.lt_succ_of_lt (inv.rooms t member)
  · intro i j t u ht hu standing
    exact absurd standing.1 (none_yet t (List.mem_of_getElem? ht))
  · intro i t ht current
    exact absurd current (none_yet t (List.mem_of_getElem? ht))
  · exact inv.published
  · exact inv.alone
  · exact inv.idle
  · exact inv.saying
  · intro t member standing
    exact absurd standing.1 (none_yet t member)
  · intro c _ i _ k t ht standing
    exact absurd standing.1 (none_yet t (List.mem_of_getElem? ht))

/-- A `publish_on` takes the mute as it is stored. -/
theorem Inv.publishOn {room : ℕ} (inv : Inv s) (turn : InTurn s (.publishOn room))
    (lt : room < s.rooms) :
    Inv { s with tracks := s.tracks ++ [⟨room, s.muted, .publishing⟩] } := by
  have alone : ∀ t ∈ s.tracks, Standing s t → ¬ room + 1 = s.rooms := by
    intro t member standing current
    have same : t.room = room := by
      have eq : t.room + 1 = s.rooms := standing.1
      omega
    exact standing.2 (turn current t member same)
  constructor
  · intro t member
    rcases List.mem_append.mp member with old | new
    · exact inv.rooms t old
    · rw [List.mem_singleton.mp new]
      exact lt
  · intro i j t u ht hu standing standing'
    rcases ListPlaces.of_append ht with oldt | ⟨rfl, rfl⟩
    · rcases ListPlaces.of_append hu with oldu | ⟨rfl, rfl⟩
      · exact inv.one i j t u oldt oldu standing standing'
      · exact absurd standing'.1 (alone t (List.mem_of_getElem? oldt) standing)
    · rcases ListPlaces.of_append hu with oldu | ⟨rfl, -⟩
      · exact absurd standing.1 (alone u (List.mem_of_getElem? oldu) standing')
      · rfl
  · intro i t ht current point
    rcases ListPlaces.of_append ht with old | ⟨-, rfl⟩
    · exact inv.latest i t old current point
    · cases point
  · intro k published
    obtain ⟨p, present⟩ := inv.published k published
    exact ⟨p, List.getElem?_append_left (List.getElem?_eq_some_iff.mp present).1 ▸ present⟩
  · exact inv.alone
  · exact inv.idle
  · exact inv.saying
  · intro t member standing
    rcases List.mem_append.mp member with old | new
    · exact inv.kept t old standing
    · rw [List.mem_singleton.mp new]
      exact inv.asSaid_muted rfl
  · intro c member i found k t ht standing other
    rcases ListPlaces.of_append ht with old | ⟨-, rfl⟩
    · exact inv.found c member i found k t old standing other
    · exact inv.saying c member (by simp [InProgress, found])

/-- A `publish_on` goes on; its track keeps its mute. -/
theorem Inv.moveTrack {was : LocalTrack} {point : Point} {published : Option ℕ} (inv : Inv s)
    (present : s.tracks[i]? = some was) (stood : was.point ≠ .failed)
    (latest : ∀ (k : ℕ) (t : LocalTrack), (s.moveTrack i was point).tracks[k]? = some t →
      s.OnCurrent t → t.point = .recorded → published = some k)
    (recorded : ∀ k : ℕ, published = some k → k = i ∨ s.published = some k) :
    Inv { s.moveTrack i was point with published := published } := by
  have member := List.mem_of_getElem? present
  have bound := inv.rooms was member
  have kept := inv.kept was member
  constructor
  · intro t member
    rcases ListPlaces.of_mem_set member with rfl | ⟨k, -, old⟩
    · exact bound
    · exact inv.rooms t (List.mem_of_getElem? old)
  · intro j k t u ht hu standing standing'
    rcases ListPlaces.of_set ht with ⟨rfl, rfl⟩ | ⟨-, oldt⟩
    · rcases ListPlaces.of_set hu with ⟨rfl, -⟩ | ⟨-, oldu⟩
      · rfl
      · exact inv.one _ k was u present oldu ⟨standing.1, stood⟩ standing'
    · rcases ListPlaces.of_set hu with ⟨rfl, rfl⟩ | ⟨-, oldu⟩
      · exact inv.one j _ t was oldt present standing ⟨standing'.1, stood⟩
      · exact inv.one j k t u oldt oldu standing standing'
  · exact latest
  · intro k eq
    change ∃ p, (s.tracks.set i _)[k]? = some p
    by_cases same : k = i
    · obtain rfl := same
      exact ⟨_, ListPlaces.set_at present⟩
    · obtain ⟨p, there⟩ := inv.published k ((recorded k eq).resolve_left same)
      exact ⟨p, (List.getElem?_set_ne (Ne.symm same)).trans there⟩
  · exact inv.alone
  · exact inv.idle
  · exact inv.saying
  · intro t member standing
    rcases ListPlaces.of_mem_set member with rfl | ⟨k, -, old⟩
    · exact kept ⟨standing.1, stood⟩
    · exact inv.kept t (List.mem_of_getElem? old) standing
  · intro c called k found l t ht standing other
    rcases ListPlaces.of_set ht with ⟨rfl, rfl⟩ | ⟨-, old⟩
    · have same := inv.found c called k found l was present ⟨standing.1, stood⟩ other
      exact same
    · exact inv.found c called k found l t old standing other

theorem Inv.answered {room : ℕ} {muted : Bool} {point : Point} (inv : Inv s)
    (present : s.tracks[i]? = some ⟨room, muted, .publishing⟩) (answer : point ≠ .recorded) :
    Inv (s.moveTrack i ⟨room, muted, .publishing⟩ point) := by
  apply inv.moveTrack present
  · simp
  · intro k t ht current recorded
    rcases ListPlaces.of_set ht with ⟨-, rfl⟩ | ⟨-, old⟩
    · exact absurd recorded answer
    · exact inv.latest k t old current recorded
  · intro k eq
    exact Or.inr eq

/-- A track of the handle's room is recorded last. -/
theorem Inv.record {room : ℕ} {muted : Bool} (inv : Inv s) (turn : InTurn s (.record i))
    (present : s.tracks[i]? = some ⟨room, muted, .recording⟩) :
    Inv { s.moveTrack i ⟨room, muted, .recording⟩ .recorded with published := some i } := by
  have bound : room < s.rooms := inv.rooms _ (List.mem_of_getElem? present)
  apply inv.moveTrack present
  · simp
  · intro k t ht current recorded
    rcases ListPlaces.of_set ht with ⟨rfl, -⟩ | ⟨-, old⟩
    · rfl
    · -- the track recorded before is on the handle's room, so this one is on it too
      have later : t.room ≤ room := turn _ present k (inv.latest k t old current recorded) t old
      have same : s.OnCurrent ⟨room, muted, .recording⟩ := by
        simp only [System.OnCurrent] at current ⊢
        omega
      have standing : Standing s t := ⟨current, by simp [recorded]⟩
      rw [inv.one i k _ t present old ⟨same, by simp⟩ standing]
  · intro k eq
    cases eq
    exact Or.inl rfl

theorem Inv.setMuted {muted : Bool} (inv : Inv s) (turn : InTurn s (.setMuted muted)) :
    Inv { s with muted := muted, calls := s.calls ++ [⟨muted, .stored⟩] } := by
  have newest : (⟨muted, .stored⟩ : MuteCall) ∈ s.calls ++ [⟨muted, .stored⟩] :=
    List.mem_append_right _ (List.mem_singleton.mpr rfl)
  constructor
  · exact inv.rooms
  · exact inv.one
  · exact inv.latest
  · exact inv.published
  · intro i j c d hc hd busy busy'
    rcases ListPlaces.of_append hc with old | ⟨rfl, -⟩
    · exact absurd busy (turn c (List.mem_of_getElem? old))
    · rcases ListPlaces.of_append hd with old | ⟨rfl, -⟩
      · exact absurd busy' (turn d (List.mem_of_getElem? old))
      · rfl
  · intro calm
    exact absurd (by simp [InProgress]) (calm _ newest)
  · intro c member busy
    rcases List.mem_append.mp member with old | new
    · exact absurd busy (turn c old)
    · rw [List.mem_singleton.mp new]
  · intro t member standing
    rcases inv.kept t member standing with said | ⟨c, called, busy, -⟩
    · exact Or.inl said
    · exact absurd busy (turn c called)
  · intro c member i found
    rcases List.mem_append.mp member with old | new
    · exact absurd (by simp [InProgress, found]) (turn c old)
    · cases List.mem_singleton.mp new
      cases found

/-- Of the tracks standing on the handle's room only the one recorded can have another
mute than the one a `set_muted` looks the track up for. -/
theorem Inv.others_said {c : MuteCall} {k : ℕ} {t : LocalTrack} (inv : Inv s)
    (turn : InTurn s (.currentTrack j)) (present : s.calls[j]? = some c)
    (ht : s.tracks[k]? = some t) (standing : Standing s t) (other : s.published ≠ some k) :
    t.muted = c.muted := by
  apply turn c present t (List.mem_of_getElem? ht) standing.1
  cases point : t.point with
  | publishing => exact Or.inl point
  | recording => exact Or.inr point
  | recorded => exact absurd (inv.latest k t ht standing.1 point) other
  | failed => exact absurd point standing.2

theorem Inv.returned {c : MuteCall} (inv : Inv s) (present : s.calls[j]? = some c)
    (busy : InProgress c) :
    s.muted = c.muted ∧ ∀ d ∈ s.calls.set j { c with point := .returned }, ¬ InProgress d := by
  refine ⟨inv.saying c (List.mem_of_getElem? present) busy, ?_⟩
  intro d member busy'
  rcases ListPlaces.of_mem_set member with rfl | ⟨k, other, old⟩
  · exact busy' rfl
  · exact other (inv.alone k j d c old present busy' busy)

/-- A `set_muted` that finds no track has nothing left to do. -/
theorem Inv.currentTrackNone {muted : Bool} (inv : Inv s) (turn : InTurn s (.currentTrack j))
    (present : s.calls[j]? = some ⟨muted, .stored⟩) (unpublished : s.published = none) :
    Inv { s.moveCall j ⟨muted, .stored⟩ .returned with said := muted } := by
  obtain ⟨stored, calm⟩ := inv.returned present (by simp [InProgress])
  constructor
  · exact inv.rooms
  · exact inv.one
  · exact inv.latest
  · exact inv.published
  · intro i k c d hc _ busy
    exact absurd busy (calm c (List.mem_of_getElem? hc))
  · intro _
    exact stored
  · intro c member busy
    exact absurd busy (calm c member)
  · intro t member standing
    obtain ⟨k, ht⟩ := List.mem_iff_getElem?.mp member
    exact Or.inl (inv.others_said turn present ht standing (by simp [unpublished]))
  · intro c member i found
    exact absurd (by simp [InProgress, found]) (calm c member)

theorem Inv.currentTrackSome {muted : Bool} (inv : Inv s) (turn : InTurn s (.currentTrack j))
    (present : s.calls[j]? = some ⟨muted, .stored⟩) (published : s.published = some i) :
    Inv (s.moveCall j ⟨muted, .stored⟩ (.found i)) := by
  have busy : InProgress ⟨muted, .stored⟩ := by simp [InProgress]
  have stored := inv.saying _ (List.mem_of_getElem? present) busy
  constructor
  · exact inv.rooms
  · exact inv.one
  · exact inv.latest
  · exact inv.published
  · intro k l c d hc hd busyc busyd
    rcases ListPlaces.of_set hc with ⟨rfl, rfl⟩ | ⟨-, oldc⟩
    · rcases ListPlaces.of_set hd with ⟨rfl, -⟩ | ⟨-, oldd⟩
      · rfl
      · exact inv.alone _ l _ d present oldd busy busyd
    · rcases ListPlaces.of_set hd with ⟨rfl, rfl⟩ | ⟨-, oldd⟩
      · exact inv.alone k _ c _ oldc present busyc busy
      · exact inv.alone k l c d oldc oldd busyc busyd
  · intro calm
    exact absurd (by simp [InProgress]) (calm _ (ListPlaces.set_mem present))
  · intro c member busyc
    rcases ListPlaces.of_mem_set member with rfl | ⟨k, -, old⟩
    · exact stored
    · exact inv.saying c (List.mem_of_getElem? old) busyc
  · intro t member standing
    rcases inv.kept t member standing with said | ⟨c, called, busyc, same⟩
    · exact Or.inl said
    · have eq : c.muted = muted :=
        (inv.saying c called busyc).symm.trans stored
      refine Or.inr ⟨_, ListPlaces.set_mem present, by simp [InProgress], ?_⟩
      exact same.trans eq
  · intro c member k found l t ht standing other
    rcases ListPlaces.of_mem_set member with rfl | ⟨k', -, old⟩
    · cases found
      have elsewhere : s.published ≠ some l := by
        rw [published]
        intro eq
        exact other (Option.some.inj eq).symm
      have said := inv.others_said turn present ht standing elsewhere
      exact said
    · exact inv.found c (List.mem_of_getElem? old) k found l t ht standing other

/-- The track that was found is muted: now all that stand on the room are as said. -/
theorem Inv.apply {muted : Bool} (inv : Inv s)
    (present : s.calls[j]? = some ⟨muted, .found i⟩) :
    Inv { s.moveCall j ⟨muted, .found i⟩ .returned with
      tracks := s.tracks.modify i fun t => t.mute muted
      said := muted } := by
  obtain ⟨stored, calm⟩ := inv.returned present (by simp [InProgress])
  have back : ∀ (k : ℕ) (t : LocalTrack), (s.tracks.modify i fun t => t.mute muted)[k]? = some t →
      ∃ u, s.tracks[k]? = some u ∧ t.room = u.room ∧ t.point = u.point ∧
        (k = i → t.muted = muted) ∧ (k ≠ i → t = u) := by
    intro k t ht
    rw [List.getElem?_modify] at ht
    obtain ⟨u, hu, rfl⟩ := Option.map_eq_some_iff.mp ht
    refine ⟨u, hu, ?_⟩
    by_cases same : i = k
    · simp [same, LocalTrack.mute]
    · simp [same, Ne.symm same]
  constructor
  · intro t member
    obtain ⟨k, ht⟩ := List.mem_iff_getElem?.mp member
    obtain ⟨u, hu, room, -, -⟩ := back k t ht
    rw [room]
    exact inv.rooms u (List.mem_of_getElem? hu)
  · intro k l t u ht hu standing standing'
    obtain ⟨t', ht', room, point, -⟩ := back k t ht
    obtain ⟨u', hu', room', point', -⟩ := back l u hu
    apply inv.one k l t' u' ht' hu'
    · exact ⟨onCurrent_of_room room standing.1, point ▸ standing.2⟩
    · exact ⟨onCurrent_of_room room' standing'.1, point' ▸ standing'.2⟩
  · intro k t ht current recorded
    obtain ⟨u, hu, room, point, -⟩ := back k t ht
    exact inv.latest k u hu (onCurrent_of_room room current) (point ▸ recorded)
  · intro k published
    obtain ⟨p, there⟩ := inv.published k published
    change ∃ p, (s.tracks.modify i fun t => t.mute muted)[k]? = some p
    rw [List.getElem?_modify, there]
    exact ⟨_, rfl⟩
  · intro k l c d hc _ busy
    exact absurd busy (calm c (List.mem_of_getElem? hc))
  · intro _
    exact stored
  · intro c member busy
    exact absurd busy (calm c member)
  · intro t member standing
    obtain ⟨k, ht⟩ := List.mem_iff_getElem?.mp member
    obtain ⟨u, hu, room, point, here, elsewhere⟩ := back k t ht
    by_cases same : k = i
    · exact Or.inl (here same)
    · obtain rfl := elsewhere same
      exact Or.inl (inv.found _ (List.mem_of_getElem? present) i rfl k t hu standing same)
  · intro c member k found
    exact absurd (by simp [InProgress, found]) (calm c member)

theorem Inv.step {a : Action} {t : System} (inv : Inv s) (turn : InTurn s a)
    (h : TrackMutes.step s a = some t) : Inv t := by
  cases a with
  | install =>
      cases h
      exact inv.install
  | publishOn room =>
      simp only [TrackMutes.step, Option.ite_none_right_eq_some, Option.some.injEq] at h
      obtain ⟨lt, rfl⟩ := h
      exact inv.publishOn turn lt
  | answered i ok =>
      simp only [TrackMutes.step] at h
      split at h
      · rename_i room muted present
        cases h
        apply inv.answered present
        cases ok <;> decide
      · cases h
  | record i =>
      simp only [TrackMutes.step] at h
      split at h
      · rename_i room muted present
        cases h
        exact inv.record turn present
      · cases h
  | setMuted muted =>
      cases h
      exact inv.setMuted turn
  | currentTrack j =>
      simp only [TrackMutes.step] at h
      split at h
      · rename_i muted present
        split at h
        · rename_i unpublished
          cases h
          exact inv.currentTrackNone turn present unpublished
        · rename_i i published
          cases h
          exact inv.currentTrackSome turn present published
      · cases h
  | apply j =>
      simp only [TrackMutes.step] at h
      split at h
      · rename_i muted i present
        cases h
        exact inv.apply present
      · cases h

end Steps

theorem start_inv (muted : Bool) : Inv (start muted) := by
  constructor
  · intro t member
    cases member
  · intro i j t u ht
    cases ht
  · intro i t ht
    cases ht
  · intro k published
    cases published
  · intro i j c d hc
    cases hc
  · intro _
    rfl
  · intro c member
    cases member
  · intro t member
    cases member
  · intro c member
    cases member

/-- A mute is kept in every run in which the publication goes out once on the handle's
room and a mute is applied when no `publish_on` there is in progress with another. -/
theorem mute_never_lost (muted : Bool) (as : List Action) {t : System}
    (turns : Admissible step InTurn (start muted) as)
    (h : run step (start muted) as = some t) : MuteKept t := by
  have inv : Inv t := by
    apply run_invariant (I := Inv) _ (start_inv muted) turns h
    intro s a u inv turn taken
    exact inv.step turn taken
  constructor
  · intro _ track member live
    exact inv.kept track member (standing_of_live live)
  · intro said calm track member live
    rcases inv.kept track member (standing_of_live live) with same | ⟨c, called, busy, -⟩
    · exact same.trans said
    · exact absurd busy (calm c called)

section Runs

/-- Published on a first room; the connection is lost and made anew. -/
def reconnected : List Action := [.install, .publishOn 0, .answered 0 true, .record 0, .install]

/-- The mute is set before the publication goes out on the new room, and lifted when it
has. -/
theorem reconnected_keeps_mute : ∃ t, run step (start false) (reconnected ++
    [.setMuted true, .currentTrack 0, .apply 0, .publishOn 1, .answered 1 true, .record 1,
      .setMuted false, .currentTrack 1, .apply 1]) = some t ∧ MuteKept t := by
  refine ⟨_, rfl, ?_⟩
  exact mute_never_lost false (reconnected ++
    [.setMuted true, .currentTrack 0, .apply 0, .publishOn 1, .answered 1 true, .record 1,
      .setMuted false, .currentTrack 1, .apply 1]) (by decide) rfl

/-- The mute is set while the publication goes out on the new room. -/
theorem not_always_mute_kept : ¬ ∀ (muted : Bool) (as : List Action) (t : System),
    run step (start muted) as = some t → MuteKept t := by
  intro always
  have broken := (always false (reconnected ++ [.publishOn 1, .setMuted true, .currentTrack 0,
    .apply 0, .answered 1 true, .record 1]) _ rfl).kept (by decide)
  revert broken
  decide

end Runs

end MatrixRtc.TrackMutes

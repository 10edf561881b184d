import MatrixRtc.StepRuns
import MatrixRtc.ListPlaces

/-!
# The publications of a handle over its sessions

`publish` picks the session the handle has, publishes on it, and enters the track in the
list that a republish reads. `reconnect` and `take_over` give the handle another session,
onto which a republish carries the tracks that are not closed. `unpublish` retracts the
publication it finds recorded, then closes the track. Every lock, atomic access and answer
of the SFU is a step of its own; publishing and retracting succeed.
-/
namespace MatrixRtc.LocalPublications
open StepRuns ListPlaces

/-- Where the `publish` that made a track stands; `on` is the session it picked. -/
inductive PublishPoint where
  | publishing (on : ℕ)
  | recording (on : ℕ)
  | entering (on : Option ℕ)
  | returned
deriving DecidableEq, Repr

/-- A track on a session, as the SFU has it. -/
structure Publication where
  session : ℕ
  live : Bool
deriving DecidableEq, Repr

/-- Where an `unpublish` stands, and the publication it has found recorded. -/
inductive Retraction where
  | reading
  | retracting (publication : ℕ)
  | closing
  | returned
deriving DecidableEq, Repr

/-- A local track with all its publications, and the calls of `unpublish` on it. -/
structure LocalTrack where
  point : PublishPoint
  publications : List Publication
  published : Option ℕ
  closed : Bool
  retractions : List Retraction
deriving DecidableEq, Repr

/-- Where the republish of a session stands, with the tracks it has still to look at. -/
inductive Republish where
  | listing
  | checking (rest : List ℕ)
  | publishing (track : ℕ) (rest : List ℕ)
  | recording (track publication : ℕ) (rest : List ℕ)
deriving DecidableEq, Repr

/-- A handle. Its sessions are numbered as they are installed, each with its republish, and
a `reconnect` remembers the installs it has seen until it installs or gives up. -/
structure System where
  installs : ℕ
  tracks : List LocalTrack
  localTracks : List ℕ
  republishes : List Republish
  reconnects : List (Option ℕ)
deriving DecidableEq, Repr

inductive Action where
  | publish
  | answered (track : ℕ)
  | record (track : ℕ)
  | enter (track : ℕ)
  | unpublish (track : ℕ)
  | readPublished (track call : ℕ)
  | retracted (track call : ℕ)
  | close (track call : ℕ)
  | reconnect
  | connected (call : ℕ)
  | takeOver
  | list (session : ℕ)
  | checkClosed (session : ℕ)
  | republished (session : ℕ)
  | rerecord (session : ℕ)
deriving DecidableEq, Repr

def LocalTrack.answer (t : LocalTrack) (session : ℕ) : LocalTrack :=
  { t with publications := t.publications ++ [⟨session, true⟩] }

/-- The room has no such publication any more. -/
def LocalTrack.retract (t : LocalTrack) (publication : ℕ) : LocalTrack :=
  { t with publications := t.publications.modify publication fun p => { p with live := false } }

def LocalTrack.moveCall (t : LocalTrack) (call : ℕ) (to_ : Retraction) : LocalTrack :=
  { t with retractions := t.retractions.set call to_ }

namespace System

/-- The session the handle has, if any. -/
def currentSession (s : System) : Option ℕ :=
  if s.republishes.isEmpty then none else some (s.republishes.length - 1)

def setTrack (s : System) (x : ℕ) (t : LocalTrack) : System :=
  { s with tracks := s.tracks.set x t }

def setRepublish (s : System) (session : ℕ) (r : Republish) : System :=
  { s with republishes := s.republishes.set session r }

/-- The handle has another session, onto which a republish starts. -/
def install (s : System) : System := { s with republishes := s.republishes ++ [.listing] }

end System

def step (s : System) : Action → Option System
  | .publish =>
      let point := match s.currentSession with
        | some session => .publishing session
        | none => .entering none
      some { s with tracks := s.tracks ++ [⟨point, [], none, false, []⟩] }
  | .answered x =>
      match s.tracks[x]? with
      | some t =>
          match t.point with
          | .publishing on => some (s.setTrack x { t.answer on with point := .recording on })
          | _ => none
      | none => none
  | .record x =>
      match s.tracks[x]? with
      | some t =>
          match t.point with
          | .recording on =>
              some (s.setTrack x { t with
                published := some (t.publications.length - 1), point := .entering (some on) })
          | _ => none
      | none => none
  | .enter x =>
      match s.tracks[x]? with
      | some t =>
          match t.point with
          | .entering _ =>
              some { s.setTrack x { t with point := .returned } with
                localTracks := s.localTracks ++ [x] }
          | _ => none
      | none => none
  | .unpublish x =>
      match s.tracks[x]? with
      | some t =>
          if t.point = .returned then
            some (s.setTrack x { t with retractions := t.retractions ++ [.reading] })
          else none
      | none => none
  | .readPublished x u =>
      match s.tracks[x]? with
      | some t =>
          if t.retractions[u]? = some .reading then
            some (s.setTrack x (t.moveCall u (match t.published with
              | some publication => .retracting publication
              | none => .closing)))
          else none
      | none => none
  | .retracted x u =>
      match s.tracks[x]? with
      | some t =>
          match t.retractions[u]? with
          | some (.retracting publication) =>
              some (s.setTrack x ((t.retract publication).moveCall u .closing))
          | _ => none
      | none => none
  | .close x u =>
      match s.tracks[x]? with
      | some t =>
          if t.retractions[u]? = some .closing then
            some (s.setTrack x { t.moveCall u .returned with closed := true })
          else none
      | none => none
  | .reconnect => some { s with reconnects := s.reconnects ++ [some s.installs] }
  | .connected i =>
      match s.reconnects[i]? with
      | some (some started) =>
          let s' := { s with reconnects := s.reconnects.set i none }
          some (if s.installs = started then s'.install else s')
      | _ => none
  | .takeOver => some { s.install with installs := s.installs + 1 }
  | .list session =>
      if s.republishes[session]? = some .listing then
        some (s.setRepublish session (.checking s.localTracks))
      else none
  | .checkClosed session =>
      match s.republishes[session]? with
      | some (.checking (x :: rest)) =>
          match s.tracks[x]? with
          | some t =>
              some (s.setRepublish session (if t.closed then .checking rest else .publishing x rest))
          | none => none
      | _ => none
  | .republished session =>
      match s.republishes[session]? with
      | some (.publishing x rest) =>
          match s.tracks[x]? with
          | some t =>
              some ((s.setTrack x (t.answer session)).setRepublish session
                (.recording x t.publications.length rest))
          | none => none
      | _ => none
  | .rerecord session =>
      match s.republishes[session]? with
      | some (.recording x publication rest) =>
          match s.tracks[x]? with
          | some t =>
              some ((s.setTrack x { t with published := some publication }).setRepublish session
                (.checking rest))
          | none => none
      | _ => none

/-- A handle that was never connected. -/
def start : System := ⟨0, [], [], [], []⟩

/-- The last of so many sessions has the track. -/
def LocalTrack.LiveOn (t : LocalTrack) (sessions : ℕ) : Prop :=
  ∃ p ∈ t.publications, p.session + 1 = sessions ∧ p.live = true

instance (t : LocalTrack) : DecidablePred t.LiveOn := fun _ =>
  inferInstanceAs (Decidable (∃ p ∈ t.publications, _ ∧ _))

/-- The handle's session has the track. -/
def System.Live (s : System) (t : LocalTrack) : Prop := t.LiveOn s.republishes.length

instance (s : System) : DecidablePred s.Live := fun _ => inferInstanceAs (Decidable (LocalTrack.LiveOn _ _))

/-- An `unpublish` has returned `Ok`. -/
def LocalTrack.Unpublished (t : LocalTrack) : Prop := .returned ∈ t.retractions

instance : DecidablePred LocalTrack.Unpublished := fun _ => inferInstanceAs (Decidable (_ ∈ _))

/-- No `publish`, `unpublish`, `reconnect` or republish is in progress. -/
structure Idle (s : System) : Prop where
  published : ∀ t ∈ s.tracks, t.point = .returned
  retracted : ∀ t ∈ s.tracks, ∀ u ∈ t.retractions, u = .returned
  republished : ∀ r ∈ s.republishes, r = .checking []
  reconnected : ∀ c ∈ s.reconnects, c = none

theorem idle_iff {s : System} : Idle s ↔ (∀ t ∈ s.tracks, t.point = .returned) ∧
    (∀ t ∈ s.tracks, ∀ u ∈ t.retractions, u = .returned) ∧
    (∀ r ∈ s.republishes, r = .checking []) ∧ ∀ c ∈ s.reconnects, c = none :=
  ⟨fun h => ⟨h.1, h.2, h.3, h.4⟩, fun h => ⟨h.1, h.2.1, h.2.2.1, h.2.2.2⟩⟩

instance : DecidablePred Idle := fun _ => decidable_of_iff _ idle_iff.symm

/-- Once all is over the handle's session has exactly the tracks that are not unpublished. -/
def Followed (s : System) : Prop :=
  Idle s → s.republishes ≠ [] → ∀ t ∈ s.tracks, (s.Live t ↔ ¬ t.Unpublished)

instance : DecidablePred Followed := fun s =>
  inferInstanceAs (Decidable (Idle s → s.republishes ≠ [] → ∀ t ∈ s.tracks, _))

/-- The republish is publishing the track, or about to record it. -/
def Republish.Carries (r : Republish) (x : ℕ) : Prop :=
  match r with
  | .publishing y _ | .recording y _ _ => y = x
  | .listing | .checking _ => False

instance (r : Republish) : DecidablePred r.Carries := fun x =>
  match r with
  | .publishing y _ | .recording y _ _ => inferInstanceAs (Decidable (y = x))
  | .listing | .checking _ => isFalse id

/-- A `publish` enters its track while the session it picked is the handle's, or before the
republish of the handle's session reads the list. An `unpublish` closes the track when the
handle's session has no publication of it left and none is being carried there. -/
def InTime (s : System) : Action → Prop
  | .enter x => ∀ t ∈ s.tracks[x]?, ∀ r ∈ s.republishes.getLast?,
      t.point = .entering s.currentSession ∨ r = .listing
  | .close x _ => ∀ t ∈ s.tracks[x]?, ¬ s.Live t ∧ ∀ r ∈ s.republishes.getLast?, ¬ r.Carries x
  | .publish | .answered _ | .record _ | .unpublish _ | .readPublished _ _ | .retracted _ _
  | .reconnect | .connected _ | .takeOver | .list _ | .checkClosed _ | .republished _
  | .rerecord _ => True

instance (s : System) : DecidablePred (InTime s)
  | .enter x => inferInstanceAs (Decidable (∀ t ∈ s.tracks[x]?, ∀ r ∈ s.republishes.getLast?, _))
  | .close x _ => inferInstanceAs (Decidable (∀ t ∈ s.tracks[x]?, _ ∧
      ∀ r ∈ s.republishes.getLast?, ¬ r.Carries x))
  | .publish | .answered _ | .record _ | .unpublish _ | .readPublished _ _ | .retracted _ _
  | .reconnect | .connected _ | .takeOver | .list _ | .checkClosed _ | .republished _
  | .rerecord _ => isTrue trivial

end MatrixRtc.LocalPublications

import MatrixRtc.LocalPublications

/-!
# Publications follow their handle

Each track is on the handle's session, or the republish onto that session has still to look
at it or is carrying it, or an `unpublish` of it is in progress; a closed one is neither there
nor carried. Every step keeps this where calls return in time.
-/
namespace MatrixRtc.CarriedPublications
open StepRuns ListPlaces LocalPublications

/-- The republish has still to look at the track, or to read the list. -/
def ToCome (r : Republish) (x : ℕ) : Prop :=
  match r with
  | .listing => True
  | .checking rest | .publishing _ rest | .recording _ _ rest => x ∈ rest

/-- The tracks a republish knows of. -/
def Knows (r : Republish) (x : ℕ) : Prop :=
  match r with
  | .listing => False
  | .checking rest => x ∈ rest
  | .publishing y rest | .recording y _ rest => x = y ∨ x ∈ rest

/-- What holds of a track, given the republishes and the list they read. -/
structure TrackOk (republishes : List Republish) (listed : List ℕ) (x : ℕ) (t : LocalTrack) :
    Prop where
  sessions : ∀ p ∈ t.publications, p.session < republishes.length
  recorded : ∀ k, t.published = some k → k < t.publications.length
  found : ∀ k, .retracting k ∈ t.retractions → k < t.publications.length
  picked : ∀ on, t.point = .publishing on → on < republishes.length
  fresh : t.point ≠ .returned → x ∉ listed ∧ t.retractions = []
  made : ∀ on, t.point = .recording on ∨ t.point = .entering (some on) →
    ⟨on, true⟩ ∈ t.publications
  entered : t.point = .returned → x ∈ listed
  closed : t.closed = true ↔ t.Unpublished
  carried : t.point = .returned → t.closed = false → ∀ r ∈ republishes.getLast?,
    ToCome r x ∨ r.Carries x ∨ t.LiveOn republishes.length ∨ ∃ u ∈ t.retractions, u ≠ .returned
  gone : t.closed = true →
    ¬ t.LiveOn republishes.length ∧ ∀ r ∈ republishes.getLast?, ¬ r.Carries x

/-- A publication of the track that a republish has made and not recorded yet. -/
structure Unrecorded (session publication : ℕ) (t : LocalTrack) : Prop where
  there : t.publications[publication]? = some ⟨session, true⟩
  unpublished : t.published ≠ some publication
  kept : .retracting publication ∉ t.retractions

structure Inv (s : System) : Prop where
  tracks : ∀ (x : ℕ) (t : LocalTrack), s.tracks[x]? = some t →
    TrackOk s.republishes s.localTracks x t
  listed : ∀ x ∈ s.localTracks, ∃ t, s.tracks[x]? = some t ∧ t.point = .returned
  known : ∀ r ∈ s.republishes, ∀ x, Knows r x → x ∈ s.localTracks
  recording : ∀ (i x k : ℕ) (rest : List ℕ), s.republishes[i]? = some (.recording x k rest) →
    ∀ t, s.tracks[x]? = some t → Unrecorded i k t

section Steps
variable {s : System} {x i : ℕ} {t t' : LocalTrack} {r r' : Republish}

theorem of_getLast_set {rs : List Republish} (present : rs[i]? = some r)
    (h : (rs.set i r').getLast? = some q) :
    (i + 1 = rs.length ∧ rs.getLast? = some r ∧ q = r') ∨ rs.getLast? = some q := by
  rw [List.getLast?_eq_getElem?, List.length_set] at h
  obtain ⟨last, rfl⟩ | ⟨-, old⟩ := of_set h
  · have lt := (List.getElem?_eq_some_iff.mp present).1
    exact .inl ⟨by omega, by rw [List.getLast?_eq_getElem?, last, present], rfl⟩
  · exact .inr (List.getLast?_eq_getElem? ▸ old)

/-- A republish goes on, with the track where it was to be carried. -/
theorem TrackOk.moved {rs : List Republish} {listed : List ℕ} (ok : TrackOk rs listed x t)
    (present : rs[i]? = some r)
    (keeps : t.point = .returned → t.closed = false → i + 1 = rs.length →
      ToCome r x ∨ r.Carries x → ToCome r' x ∨ r'.Carries x ∨ t.LiveOn rs.length)
    (carries : t.closed = true → r'.Carries x → r.Carries x) :
    TrackOk (rs.set i r') listed x t where
  sessions p there := by
    rw [List.length_set]
    exact ok.sessions p there
  recorded := ok.recorded
  found := ok.found
  picked on point := by
    rw [List.length_set]
    exact ok.picked on point
  fresh := ok.fresh
  made := ok.made
  entered := ok.entered
  closed := ok.closed
  carried returned opened q last := by
    rw [List.length_set]
    obtain ⟨is_last, before, rfl⟩ | before := of_getLast_set present last
    · obtain come | carried | rest := ok.carried returned opened r before
      · exact (keeps returned opened is_last (.inl come)).imp_right (.imp_right .inl)
      · exact (keeps returned opened is_last (.inr carried)).imp_right (.imp_right .inl)
      · exact .inr (.inr rest)
    · exact ok.carried returned opened q before
  gone is_closed := by
    rw [List.length_set]
    refine ⟨(ok.gone is_closed).1, fun q last carried => ?_⟩
    obtain ⟨-, before, rfl⟩ | before := of_getLast_set present last
    · exact (ok.gone is_closed).2 r before (carries is_closed carried)
    · exact (ok.gone is_closed).2 q before carried

/-- A track is replaced by one that is right. -/
theorem Inv.setTrack (inv : Inv s) (present : s.tracks[x]? = some t)
    (ok : TrackOk s.republishes s.localTracks x t')
    (returned : t.point = .returned → t'.point = .returned)
    (unrecorded : ∀ i k rest, s.republishes[i]? = some (.recording x k rest) →
      Unrecorded i k t → Unrecorded i k t') : Inv (s.setTrack x t') where
  tracks y u at_ := by
    obtain ⟨rfl, rfl⟩ | ⟨-, old⟩ := of_set at_
    · exact ok
    · exact inv.tracks y u old
  listed y there := by
    obtain ⟨u, at_, point⟩ := inv.listed y there
    by_cases same : y = x
    · subst same
      obtain rfl : t = u := Option.some.inj (present.symm.trans at_)
      exact ⟨t', set_at present, returned point⟩
    · exact ⟨u, (List.getElem?_set_ne (Ne.symm same)).trans at_, point⟩
  known := inv.known
  recording j y k rest there u at_ := by
    obtain ⟨rfl, rfl⟩ | ⟨-, old⟩ := of_set at_
    · exact unrecorded j k rest there (inv.recording j _ k rest there t present)
    · exact inv.recording j y k rest there u old

theorem Inv.setRepublish (inv : Inv s) (present : s.republishes[i]? = some r)
    (ok : ∀ x t, s.tracks[x]? = some t → TrackOk (s.republishes.set i r') s.localTracks x t)
    (known : ∀ x, Knows r' x → x ∈ s.localTracks)
    (recording : ∀ x k rest, r' = .recording x k rest → ∀ t, s.tracks[x]? = some t →
      Unrecorded i k t) : Inv (s.setRepublish i r') where
  tracks := ok
  listed := inv.listed
  known q there x knows := by
    obtain rfl | ⟨k, -, old⟩ := of_mem_set there
    · exact known x knows
    · exact inv.known q (List.mem_of_getElem? old) x knows
  recording j x k rest there t at_ := by
    obtain ⟨rfl, same⟩ | ⟨-, old⟩ := of_set there
    · exact recording x k rest same.symm t at_
    · exact inv.recording j x k rest old t at_

theorem mem_lt (inv : Inv s) (there : x ∈ s.localTracks) : x < s.tracks.length := by
  obtain ⟨t, at_, -⟩ := inv.listed x there
  exact (List.getElem?_eq_some_iff.mp at_).1

/-- A track whose `publish` has not returned. -/
theorem TrackOk.of_fresh {rs : List Republish} {listed : List ℕ} (fresh : t.point ≠ .returned)
    (unlisted : x ∉ listed) (uncalled : t.retractions = []) (opened : t.closed = false)
    (sessions : ∀ p ∈ t.publications, p.session < rs.length)
    (recorded : ∀ k, t.published = some k → k < t.publications.length)
    (picked : ∀ on, t.point = .publishing on → on < rs.length)
    (made : ∀ on, t.point = .recording on ∨ t.point = .entering (some on) →
      ⟨on, true⟩ ∈ t.publications) : TrackOk rs listed x t where
  sessions := sessions
  recorded := recorded
  found k there := by
    rw [uncalled] at there
    cases there
  picked := picked
  fresh _ := ⟨unlisted, uncalled⟩
  made := made
  entered returned := absurd returned fresh
  closed := by
    rw [opened, LocalTrack.Unpublished, uncalled]
    exact iff_of_false Bool.false_ne_true List.not_mem_nil
  carried returned := absurd returned fresh
  gone closed := absurd (opened.symm.trans closed) Bool.false_ne_true

theorem TrackOk.opened {rs : List Republish} {listed : List ℕ} (ok : TrackOk rs listed x t)
    (fresh : t.point ≠ .returned) : t.closed = false := by
  rw [Bool.eq_false_iff]
  intro closed
  have unpublished : .returned ∈ t.retractions := ok.closed.mp closed
  rw [(ok.fresh fresh).2] at unpublished
  cases unpublished

/-- A track just made is nowhere yet. -/
theorem Inv.publish (inv : Inv s) {point : PublishPoint} (first : point ≠ .returned)
    (picked : ∀ on, point = .publishing on → on < s.republishes.length)
    (none_made : ∀ on, ¬ (point = .recording on ∨ point = .entering (some on))) :
    Inv { s with tracks := s.tracks ++ [⟨point, [], none, false, []⟩] } where
  tracks x t at_ := by
    obtain old | ⟨rfl, rfl⟩ := of_append at_
    · exact inv.tracks x t old
    · refine .of_fresh first (fun there => ?_) rfl rfl (fun p there => ?_) (fun k is => ?_) picked
        (fun on is => absurd is (none_made on))
      · exact absurd (mem_lt inv there) (Nat.lt_irrefl _)
      · cases there
      · cases is
  listed x there := by
    obtain ⟨t, at_, point⟩ := inv.listed x there
    exact ⟨t, (List.getElem?_append_left (mem_lt inv there)).trans at_, point⟩
  known := inv.known
  recording i x k rest there t at_ := by
    obtain old | ⟨rfl, -⟩ := of_append at_
    · exact inv.recording i x k rest there t old
    · have listed := inv.known _ (List.mem_of_getElem? there) _ (.inl rfl)
      exact absurd (mem_lt inv listed) (Nat.lt_irrefl _)

theorem Inv.setFresh (inv : Inv s) (present : s.tracks[x]? = some t) (fresh : t.point ≠ .returned)
    (ok : TrackOk s.republishes s.localTracks x t') : Inv (s.setTrack x t') := by
  refine inv.setTrack present ok (fun returned => absurd returned fresh) fun i k rest there => ?_
  obtain ⟨u, at_, returned⟩ :=
    inv.listed x (inv.known _ (List.mem_of_getElem? there) x (.inl rfl))
  obtain rfl : t = u := Option.some.inj (present.symm.trans at_)
  exact absurd returned fresh

theorem sessions_answer {n on : ℕ} (before : ∀ p ∈ t.publications, p.session < n) (lt : on < n) :
    ∀ p ∈ (t.answer on).publications, p.session < n := by
  intro p there
  obtain old | new := List.mem_append.mp there
  · exact before p old
  · rw [List.mem_singleton.mp new]
    exact lt

theorem mem_answer (t : LocalTrack) (on : ℕ) : ⟨on, true⟩ ∈ (t.answer on).publications :=
  List.mem_append_right _ (List.mem_singleton_self _)

theorem length_answer (t : LocalTrack) (on : ℕ) :
    (t.answer on).publications.length = t.publications.length + 1 := List.length_append

/-- The SFU has the track. -/
theorem Inv.answered (inv : Inv s) {on : ℕ} (present : s.tracks[x]? = some t)
    (point : t.point = .publishing on) :
    Inv (s.setTrack x { t.answer on with point := .recording on }) := by
  have fresh : t.point ≠ .returned := by simp [point]
  have ok := inv.tracks x t present
  refine inv.setFresh present fresh <| .of_fresh (by simp) (ok.fresh fresh).1 (ok.fresh fresh).2
    (ok.opened fresh) (sessions_answer ok.sessions (ok.picked on point)) (fun k recorded => ?_)
    (fun m is => ?_) (fun m is => ?_)
  · have := ok.recorded k recorded
    have := length_answer t on
    dsimp only
    omega
  · cases is
  · obtain is | is := is
    · cases is
      exact mem_answer t _
    · cases is

/-- The publication is recorded. -/
theorem Inv.record (inv : Inv s) {on : ℕ} (present : s.tracks[x]? = some t)
    (point : t.point = .recording on) :
    Inv (s.setTrack x { t with
      published := some (t.publications.length - 1), point := .entering (some on) }) := by
  have fresh : t.point ≠ .returned := by simp [point]
  have ok := inv.tracks x t present
  have there := ok.made on (.inl point)
  refine inv.setFresh present fresh <| .of_fresh (by simp) (ok.fresh fresh).1 (ok.fresh fresh).2
    (ok.opened fresh) ok.sessions (fun k recorded => ?_) (fun m is => ?_) (fun m is => ?_)
  · cases recorded
    have := List.length_pos_of_mem there
    dsimp only
    omega
  · cases is
  · obtain is | is := is
    · cases is
    · cases is
      exact there

/-- The track is in the list, and on the handle's session or still to be carried there. -/
theorem Inv.enter (inv : Inv s) {on : Option ℕ} (present : s.tracks[x]? = some t)
    (point : t.point = .entering on) (inTime : InTime s (.enter x)) :
    Inv { s.setTrack x { t with point := .returned } with localTracks := s.localTracks ++ [x] } := by
  have fresh : t.point ≠ .returned := by simp [point]
  have ok := inv.tracks x t present
  have entered : TrackOk s.republishes (s.localTracks ++ [x]) x { t with point := .returned } :=
    { sessions := ok.sessions
      recorded := ok.recorded
      found := ok.found
      picked := fun m is => nomatch is
      fresh := fun fresh => absurd rfl fresh
      made := fun m is => is.elim (fun is => nomatch is) (fun is => nomatch is)
      entered := fun _ => List.mem_append_right _ (List.mem_singleton_self x)
      closed := ok.closed
      carried := fun _ _ r last => by
        obtain picked | rfl := inTime t present r last
        · refine .inr (.inr (.inl ⟨⟨s.republishes.length - 1, true⟩, ?_, ?_, rfl⟩))
          · refine ok.made _ (.inr (picked.trans ?_))
            rw [System.currentSession, if_neg]
            intro empty
            rw [List.isEmpty_iff.mp empty] at last
            cases last
          · have := List.length_pos_of_mem (List.mem_of_getLast? last)
            dsimp only
            omega
        · exact .inl trivial
      gone := ok.gone }
  have others : ∀ y u, y ≠ x → s.tracks[y]? = some u →
      TrackOk s.republishes (s.localTracks ++ [x]) y u := by
    intro y u other at_
    have before := inv.tracks y u at_
    refine { before with fresh := fun fresh => ⟨?_, (before.fresh fresh).2⟩, entered := ?_ }
    · intro there
      obtain old | new := List.mem_append.mp there
      · exact (before.fresh fresh).1 old
      · exact other (List.mem_singleton.mp new)
    · exact fun returned => List.mem_append_left _ (before.entered returned)
  constructor
  · intro y u at_
    obtain ⟨rfl, rfl⟩ | ⟨other, old⟩ := of_set at_
    · exact entered
    · exact others y u other old
  · intro y there
    by_cases same : y = x
    · subst same
      exact ⟨_, set_at present, rfl⟩
    · obtain old | new := List.mem_append.mp there
      · obtain ⟨u, at_, returned⟩ := inv.listed y old
        exact ⟨u, (List.getElem?_set_ne (Ne.symm same)).trans at_, returned⟩
      · exact absurd (List.mem_singleton.mp new) same
  · exact fun r there y knows => List.mem_append_left _ (inv.known r there y knows)
  · intro i y k rest there u at_
    obtain ⟨rfl, rfl⟩ | ⟨-, old⟩ := of_set at_
    · have listed := inv.known _ (List.mem_of_getElem? there) _ (.inl rfl)
      exact absurd listed (ok.fresh fresh).1
    · exact inv.recording i y k rest there u old

theorem mem_moveCall {u : Retraction} {call : ℕ} {to_ : Retraction}
    (h : u ∈ (t.moveCall call to_).retractions) : u = to_ ∨ u ∈ t.retractions := by
  obtain same | ⟨k, -, old⟩ := of_mem_set h
  · exact .inl same
  · exact .inr (List.mem_of_getElem? old)

/-- An `unpublish` goes on and has not returned: the track may lose publications, and none
that a republish is to record. -/
theorem Inv.called (inv : Inv s) (present : s.tracks[x]? = some t)
    (returned : t.point = .returned) (same : t'.point = t.point ∧ t'.closed = t.closed ∧
      t'.published = t.published ∧ t'.publications.length = t.publications.length)
    (fewer : ∀ p ∈ t'.publications, ∃ q ∈ t.publications, q.session = p.session ∧
      (p.live = true → q.live = true))
    (calls : ∀ u ∈ t'.retractions, u ∈ t.retractions ∨ u ≠ .returned ∧ ∀ k, u = .retracting k →
      t.published = some k)
    (kept : .returned ∈ t.retractions → .returned ∈ t'.retractions)
    (progress : ∃ u ∈ t'.retractions, u ≠ .returned)
    (there : ∀ i k, Unrecorded i k t → t'.publications[k]? = some ⟨i, true⟩) :
    Inv (s.setTrack x t') := by
  have ok := inv.tracks x t present
  obtain ⟨point, closed, published, length⟩ := same
  have live : t'.LiveOn s.republishes.length → t.LiveOn s.republishes.length := by
    rintro ⟨p, there, current, is_live⟩
    obtain ⟨q, before, session, was_live⟩ := fewer p there
    exact ⟨q, before, session ▸ current, was_live is_live⟩
  have unpublished : t'.Unpublished ↔ t.Unpublished := by
    refine ⟨fun there => ?_, kept⟩
    obtain old | ⟨new, -⟩ := calls _ there
    · exact old
    · exact absurd rfl new
  refine inv.setTrack present ?_ (fun _ => point.trans returned) fun i k rest _ unrecorded => ?_
  · exact
      { sessions := fun p there => by
          obtain ⟨q, before, session, -⟩ := fewer p there
          exact session ▸ ok.sessions q before
        recorded := fun k is => by
          rw [length]
          exact ok.recorded k (published ▸ is)
        found := fun k there => by
          rw [length]
          obtain old | ⟨-, new⟩ := calls _ there
          · exact ok.found k old
          · exact ok.recorded k (new k rfl)
        picked := fun on is => nomatch (point.trans returned).symm.trans is
        fresh := fun fresh => absurd (point.trans returned) fresh
        made := fun on is => is.elim (fun is => nomatch (point.trans returned).symm.trans is)
          fun is => nomatch (point.trans returned).symm.trans is
        entered := fun _ => ok.entered returned
        closed := by rw [closed, unpublished, ok.closed]
        carried := fun _ _ r last => .inr (.inr (.inr progress))
        gone := fun is_closed => by
          obtain ⟨dead, uncarried⟩ := ok.gone (closed ▸ is_closed)
          exact ⟨fun is_live => dead (live is_live), uncarried⟩ }
  · refine ⟨there i k unrecorded, published ▸ unrecorded.unpublished, fun member => ?_⟩
    obtain old | ⟨-, new⟩ := calls _ member
    · exact unrecorded.kept old
    · exact unrecorded.unpublished (new k rfl)

theorem Inv.unpublish (inv : Inv s) (present : s.tracks[x]? = some t)
    (returned : t.point = .returned) :
    Inv (s.setTrack x { t with retractions := t.retractions ++ [.reading] }) := by
  refine inv.called present returned ⟨rfl, rfl, rfl, rfl⟩ (fun p there => ⟨p, there, rfl, id⟩)
    (fun u there => ?_) (fun there => List.mem_append_left _ there)
    ⟨.reading, List.mem_append_right _ (List.mem_singleton_self _), by simp⟩
    fun i k unrecorded => unrecorded.there
  obtain old | new := List.mem_append.mp there
  · exact .inl old
  · rw [List.mem_singleton.mp new]
    exact .inr ⟨by simp, fun k is => nomatch is⟩

theorem returned_of_call (ok : TrackOk s.republishes s.localTracks x t) {call : ℕ}
    {u : Retraction} (at_ : t.retractions[call]? = some u) : t.point = .returned := by
  by_contra fresh
  rw [(ok.fresh fresh).2] at at_
  cases at_

theorem kept_moveCall {call : ℕ} {u to_ : Retraction} (at_ : t.retractions[call]? = some u)
    (going : u ≠ .returned) (there : .returned ∈ t.retractions) :
    .returned ∈ (t.moveCall call to_).retractions := by
  obtain ⟨k, old⟩ := List.mem_iff_getElem?.mp there
  refine mem_of_ne (fun same => going ?_) old
  subst same
  exact Option.some.inj (at_.symm.trans old)

theorem Inv.readPublished (inv : Inv s) (present : s.tracks[x]? = some t) {call : ℕ}
    (at_ : t.retractions[call]? = some .reading) {to_ : Retraction} (going : to_ ≠ .returned)
    (recorded : ∀ k, to_ = .retracting k → t.published = some k) :
    Inv (s.setTrack x (t.moveCall call to_)) := by
  refine inv.called present (returned_of_call (inv.tracks x t present) at_) ⟨rfl, rfl, rfl, rfl⟩
    (fun p there => ⟨p, there, rfl, id⟩) (fun u there => ?_)
    (kept_moveCall at_ (by simp)) ⟨to_, set_mem at_, going⟩ fun i k unrecorded => unrecorded.there
  obtain rfl | old := mem_moveCall there
  · exact .inr ⟨going, recorded⟩
  · exact .inl old

theorem mem_retract {p : Publication} {k : ℕ} (h : p ∈ (t.retract k).publications) :
    ∃ q ∈ t.publications, q.session = p.session ∧ (p.live = true → q.live = true) := by
  obtain ⟨j, at_⟩ := List.mem_iff_getElem?.mp h
  rw [LocalTrack.retract, List.getElem?_modify, Option.map_eq_map, Option.map_eq_some_iff] at at_
  obtain ⟨q, before, rfl⟩ := at_
  refine ⟨q, List.mem_of_getElem? before, ?_⟩
  split_ifs
  · exact ⟨rfl, fun live => nomatch live⟩
  · exact ⟨rfl, id⟩

/-- The publication is retracted: it is none that a republish is to record. -/
theorem Inv.retracted (inv : Inv s) (present : s.tracks[x]? = some t) {call k : ℕ}
    (at_ : t.retractions[call]? = some (.retracting k)) :
    Inv (s.setTrack x ((t.retract k).moveCall call .closing)) := by
  have placed : (t.retract k).retractions[call]? = some (.retracting k) := at_
  refine inv.called present (returned_of_call (inv.tracks x t present) at_)
    ⟨rfl, rfl, rfl, List.length_modify ..⟩ (fun p there => mem_retract there) (fun u there => ?_)
    (kept_moveCall (t := t.retract k) at_ (by simp))
    ⟨.closing, set_mem placed, by simp⟩ fun i j unrecorded => ?_
  · obtain rfl | old := mem_moveCall there
    · exact .inr ⟨by simp, fun k is => nomatch is⟩
    · exact .inl old
  · have other : k ≠ j := by
      rintro rfl
      exact unrecorded.kept (List.mem_of_getElem? at_)
    change (t.publications.modify k _)[j]? = _
    rw [List.getElem?_modify, unrecorded.there, Option.map_eq_map, Option.map_some, if_neg other]

/-- The track is closed, with nothing of it left on the handle's session. -/
theorem Inv.close (inv : Inv s) (present : s.tracks[x]? = some t) {call : ℕ}
    (at_ : t.retractions[call]? = some .closing) (inTime : InTime s (.close x call)) :
    Inv (s.setTrack x { t.moveCall call .returned with closed := true }) := by
  have ok := inv.tracks x t present
  have returned := returned_of_call ok at_
  have before : ∀ k, .retracting k ∈ (t.moveCall call .returned).retractions →
      .retracting k ∈ t.retractions := by
    intro k there
    obtain new | old := mem_moveCall there
    · cases new
    · exact old
  refine inv.setTrack present ?_ (fun _ => returned) fun i k rest _ unrecorded =>
    ⟨unrecorded.there, unrecorded.unpublished, fun there => unrecorded.kept (before k there)⟩
  exact
    { ok with
      found := fun k there => ok.found k (before k there)
      fresh := fun fresh => absurd returned fresh
      closed := iff_of_true rfl (set_mem at_)
      carried := fun _ opened => nomatch opened
      gone := fun _ => inTime t present }

theorem Inv.list (inv : Inv s) (present : s.republishes[i]? = some .listing) :
    Inv (s.setRepublish i (.checking s.localTracks)) := by
  refine inv.setRepublish present (fun x t at_ => ?_) (fun x there => there)
    fun x k rest is => nomatch is
  have ok := inv.tracks x t at_
  exact ok.moved present (fun returned _ _ _ => .inl (ok.entered returned)) fun _ carries => carries

/-- The republish finds the track open, and publishes it, or closed, and leaves it. -/
theorem Inv.checkClosed (inv : Inv s) {rest : List ℕ}
    (present : s.republishes[i]? = some (.checking (x :: rest))) (at_ : s.tracks[x]? = some t) :
    Inv (s.setRepublish i (if t.closed then .checking rest else .publishing x rest)) := by
  have known := inv.known _ (List.mem_of_getElem? present)
  have own {y : ℕ} {u : LocalTrack} (other : s.tracks[y]? = some u) (same : y = x) : u = t := by
    subst same
    exact Option.some.inj (other.symm.trans at_)
  split_ifs with closed
  · refine inv.setRepublish present (fun y u other => ?_)
      (fun y there => known y (List.mem_cons_of_mem _ there)) fun y k rest is => nomatch is
    refine (inv.tracks y u other).moved present (fun _ opened _ before => ?_) fun _ carries => carries
    obtain come | carries := before
    · obtain same | come := List.mem_cons.mp come
      · rw [own other same, closed] at opened
        cases opened
      · exact .inl come
    · cases carries
  · refine inv.setRepublish present (fun y u other => ?_) (fun y there => ?_)
      fun y k rest is => nomatch is
    · refine (inv.tracks y u other).moved present (fun _ _ _ before => ?_) fun closed' carries => ?_
      · obtain come | carries := before
        · obtain same | come := List.mem_cons.mp come
          · exact .inr (.inl same.symm)
          · exact .inl come
        · cases carries
      · rw [own other carries.symm] at closed'
        exact absurd closed' closed
    · obtain same | there := there
      · exact known y (same ▸ List.mem_cons_self)
      · exact known y (List.mem_cons_of_mem _ there)

theorem liveOn_answer {n on : ℕ} (h : t.LiveOn n) : (t.answer on).LiveOn n := by
  obtain ⟨p, there, rest⟩ := h
  exact ⟨p, List.mem_append_left _ there, rest⟩

/-- The SFU of the republish's session has the track. -/
theorem Inv.republished (inv : Inv s) {rest : List ℕ}
    (present : s.republishes[i]? = some (.publishing x rest)) (at_ : s.tracks[x]? = some t) :
    Inv ((s.setTrack x (t.answer i)).setRepublish i (.recording x t.publications.length rest)) := by
  have ok := inv.tracks x t at_
  have lt := (List.getElem?_eq_some_iff.mp present).1
  have known := inv.known _ (List.mem_of_getElem? present)
  have returned : t.point = .returned := by
    by_contra fresh
    exact (ok.fresh fresh).1 (known x (.inl rfl))
  have answered : Inv (s.setTrack x (t.answer i)) := by
    refine inv.setTrack at_ ?_ id fun j k rest _ unrecorded => ⟨?_, unrecorded.2, unrecorded.3⟩
    · exact
        { ok with
          sessions := sessions_answer ok.sessions lt
          recorded := fun k is => by
            rw [length_answer]
            exact Nat.lt_succ_of_lt (ok.recorded k is)
          found := fun k there => by
            rw [length_answer]
            exact Nat.lt_succ_of_lt (ok.found k there)
          made := fun on is => List.mem_append_left _ (ok.made on is)
          carried := fun returned opened q last =>
            (ok.carried returned opened q last).imp_right (.imp_right (.imp_left liveOn_answer))
          gone := fun closed => by
            refine ⟨?_, (ok.gone closed).2⟩
            rintro ⟨p, there, current, live⟩
            obtain old | new := List.mem_append.mp there
            · exact (ok.gone closed).1 ⟨p, old, current, live⟩
            · rw [List.mem_singleton.mp new] at current
              have last : s.republishes.getLast? = some (.publishing x rest) := by
                rw [List.getLast?_eq_getElem?, ← current]
                exact present
              exact (ok.gone closed).2 _ last rfl }
    · have := (List.getElem?_eq_some_iff.mp unrecorded.there).1
      exact (List.getElem?_append_left this).trans unrecorded.there
  refine answered.setRepublish present (fun y u other => ?_) known fun y k rest' is u other => ?_
  · exact (answered.tracks y u other).moved present
      (fun _ _ _ before => before.imp_right .inl) fun _ carries => carries
  · cases is
    obtain rfl : t.answer i = u := Option.some.inj ((set_at at_).symm.trans other)
    refine ⟨?_, fun is => ?_, fun there => ?_⟩
    · simp [LocalTrack.answer]
    · exact absurd (ok.recorded _ is) (Nat.lt_irrefl _)
    · exact absurd (ok.found _ there) (Nat.lt_irrefl _)

/-- The republish records its publication, and looks at the next track. -/
theorem Inv.rerecord (inv : Inv s) {k : ℕ} {rest : List ℕ}
    (present : s.republishes[i]? = some (.recording x k rest)) (at_ : s.tracks[x]? = some t) :
    Inv ((s.setTrack x { t with published := some k }).setRepublish i (.checking rest)) := by
  have known := inv.known _ (List.mem_of_getElem? present)
  have unrecorded := inv.recording i x k rest present t at_
  have there := List.mem_of_getElem? unrecorded.there
  have went : Inv (s.setRepublish i (.checking rest)) := by
    refine inv.setRepublish present (fun y u other => ?_) (fun y there => known y (.inr there))
      fun y k rest is => nomatch is
    refine (inv.tracks y u other).moved present (fun _ _ is_last before => ?_)
      fun _ carries => nomatch carries
    obtain come | rfl := before
    · exact .inl come
    · obtain rfl : t = u := Option.some.inj (at_.symm.trans other)
      exact .inr (.inr ⟨_, there, is_last, rfl⟩)
  have ok := went.tracks x t at_
  refine went.setTrack at_ ?_ id fun j m rest' at' before => ⟨before.there, fun is => ?_, before.kept⟩
  · refine { ok with recorded := fun m is => ?_ }
    cases is
    exact (List.getElem?_eq_some_iff.mp unrecorded.there).1
  · cases is
    have same : i = j := by
      have := unrecorded.there.symm.trans before.there
      simpa using this
    subst same
    obtain ⟨-, is⟩ | ⟨other, -⟩ := of_set at'
    · cases is
    · exact other rfl

/-- The handle has another session, with no track of ours yet. -/
theorem Inv.install (inv : Inv s) : Inv s.install where
  tracks x t at_ := by
    have ok := inv.tracks x t at_
    have none_yet : ¬ t.LiveOn s.install.republishes.length := by
      rintro ⟨p, there, current, -⟩
      have := ok.sessions p there
      rw [System.install, List.length_append, List.length_singleton] at current
      omega
    have last {r : Republish} (h : s.install.republishes.getLast? = some r) : r = .listing := by
      simpa [System.install] using h.symm
    exact
      { ok with
        sessions := fun p there => by
          have := ok.sessions p there
          simp only [System.install, List.length_append]
          omega
        picked := fun on point => by
          have := ok.picked on point
          simp only [System.install, List.length_append]
          omega
        carried := fun _ _ r is => by
          obtain rfl := last is
          exact .inl trivial
        gone := fun _ => ⟨none_yet, fun r is carries => by
          obtain rfl := last is
          exact carries⟩ }
  listed := inv.listed
  known r there x knows := by
    obtain old | new := List.mem_append.mp there
    · exact inv.known r old x knows
    · rw [List.mem_singleton.mp new] at knows
      cases knows
  recording i x k rest there t at_ := by
    obtain old | ⟨-, new⟩ := of_append there
    · exact inv.recording i x k rest old t at_
    · cases new

theorem inv_start : Inv start where
  tracks _ _ at_ := nomatch at_
  listed _ there := nomatch there
  known _ there := nomatch there
  recording _ _ _ _ there := nomatch there

/-- Every step in time keeps the invariant. -/
theorem inv_step (a : Action) (inv : Inv s) (inTime : InTime s a) {s' : System}
    (h : step s a = some s') : Inv s' := by
  cases a with
  | publish =>
      cases h
      unfold System.currentSession
      split_ifs with empty
      · exact inv.publish (by simp) (by simp) (by simp)
      · refine inv.publish (by simp) (fun on is => ?_) (by simp)
        cases is
        have := List.length_pos_iff.mpr fun is => empty (List.isEmpty_iff.mpr is)
        omega
  | answered x =>
      simp only [step] at h
      split at h
      · next t present =>
          split at h
          · next on point =>
              cases h
              exact inv.answered present point
          · cases h
      · cases h
  | record x =>
      simp only [step] at h
      split at h
      · next t present =>
          split at h
          · next on point =>
              cases h
              exact inv.record present point
          · cases h
      · cases h
  | enter x =>
      simp only [step] at h
      split at h
      · next t present =>
          split at h
          · next on point =>
              cases h
              exact inv.enter present point inTime
          · cases h
      · cases h
  | unpublish x =>
      simp only [step] at h
      split at h
      · next t present =>
          split_ifs at h with returned
          cases h
          exact inv.unpublish present returned
      · cases h
  | readPublished x u =>
      simp only [step] at h
      split at h
      · next t present =>
          split_ifs at h with at_
          cases h
          cases recorded : t.published with
          | none => exact inv.readPublished present at_ (by simp) fun k is => nomatch is
          | some k =>
              refine inv.readPublished present at_ (by simp) fun j is => ?_
              cases is
              exact recorded
      · cases h
  | retracted x u =>
      simp only [step] at h
      split at h
      · next t present =>
          split at h
          · next k at_ =>
              cases h
              exact inv.retracted present at_
          · cases h
      · cases h
  | close x u =>
      simp only [step] at h
      split at h
      · next t present =>
          split_ifs at h with at_
          cases h
          exact inv.close present at_ inTime
      · cases h
  | reconnect =>
      cases h
      exact { inv with }
  | connected i =>
      simp only [step] at h
      split at h
      · cases h
        split_ifs
        · exact Inv.install { inv with }
        · exact { inv with }
      · cases h
  | takeOver =>
      cases h
      exact { inv.install with }
  | list i =>
      simp only [step] at h
      split_ifs at h with present
      cases h
      exact inv.list present
  | checkClosed i =>
      simp only [step] at h
      split at h
      · next x rest present =>
          split at h
          · next t at_ =>
              cases h
              exact inv.checkClosed present at_
          · cases h
      · cases h
  | republished i =>
      simp only [step] at h
      split at h
      · next x rest present =>
          split at h
          · next t at_ =>
              cases h
              exact inv.republished present at_
          · cases h
      · cases h
  | rerecord i =>
      simp only [step] at h
      split at h
      · next x k rest present =>
          split at h
          · next t at_ =>
              cases h
              exact inv.rerecord present at_
          · cases h
      · cases h

end Steps

/-- A handle whose calls are over, with all its tracks where they belong. -/
theorem Inv.followed {s : System} (inv : Inv s) : Followed s := by
  intro idle connected t there
  obtain ⟨x, at_⟩ := List.mem_iff_getElem?.mp there
  have ok := inv.tracks x t at_
  rw [← ok.closed]
  constructor
  · intro live closed
    exact (ok.gone closed).1 live
  · intro opened
    rw [Bool.not_eq_true] at opened
    obtain ⟨r, last⟩ := Option.ne_none_iff_exists'.mp
      (mt List.getLast?_eq_none_iff.mp connected)
    have over_ := idle.republished r (List.mem_of_getLast? last)
    obtain come | carries | live | ⟨u, called, going⟩ :=
      ok.carried (idle.published t there) opened r last
    · rw [over_] at come
      cases come
    · rw [over_] at carries
      cases carries
    · exact live
    · exact absurd (idle.retracted t there u called) going

/-- In every run whose calls return in time, once all are over the handle's session has
exactly the tracks whose `publish` and no `unpublish` has returned `Ok`. -/
theorem publications_follow (as : List Action) (inTime : Admissible step InTime start as) :
    Always step Followed start as :=
  always_of_admissible (fun _ a _ inv inTime h => inv_step a inv inTime h)
    (fun _ inv => inv.followed) inv_start inTime

/-- A microphone that is carried onto a second session, then taken back. -/
theorem publications_follow_carried :
    Always step Followed start
      [.reconnect, .connected 0, .list 0, .publish, .answered 0, .record 0, .enter 0,
        .reconnect, .connected 1, .list 1, .checkClosed 1, .republished 1, .rerecord 1,
        .unpublish 0, .readPublished 0 0, .retracted 0 0, .close 0 0] :=
  publications_follow _ (by decide)

/-- A microphone published on the first session while the handle is given the second, whose
republish has read the list before the microphone is in it. -/
theorem late_publish_not_carried :
    ¬ ∀ as : List Action, Always step Followed start as := by
  intro all
  have followed := all
    [.reconnect, .connected 0, .list 0, .publish, .reconnect, .connected 1, .list 1,
      .answered 0, .record 0, .enter 0]
  revert followed
  decide

end MatrixRtc.CarriedPublications

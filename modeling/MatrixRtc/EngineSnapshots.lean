import MatrixRtc.EngineStreams

/-!
# What a snapshot makes of an engine's roster

A snapshot takes the departed off the roster, with all that is kept of them, and puts the
arrived on it. Both are told, where they are news, with the size of the roster that comes of
it; whoever stays is left as it was.
-/
namespace MatrixRtc.EngineSnapshots
open MemberEvents MediaTransports Tables MediaPools PoolMoves PoolMembers HostRosters
open CallEngines EngineStreams

def idsOf (roster : List Participant) : List String := roster.map (·.memberId)

/-- What a departure or an arrival does: it is told where it is news, and the pool, our
publications and what has ended are left alone. -/
structure Announces (announce : Bool) (count : ℕ) (a b : Actor) : Prop where
  ownMemberId : b.ownMemberId = a.ownMemberId
  localTracks : b.localTracks = a.localTracks
  pool : b.pool = a.pool
  arrived : b.arrived = a.arrived
  told : ∃ events, b.events = a.events ++ events ∧
    (∀ event ∈ events, ∀ said ∈ participantCount event, said = count) ∧
    events.foldl (said a.ownMemberId) none = none ∧
    (announce = true → ∀ memberId, memberId ≠ a.ownMemberId →
      events.foldl (said memberId) (streamsOf a.roster memberId) =
        streamsOf b.roster memberId)

section
variable {a b c : Actor} {memberId : String} {announce : Bool} {count : ℕ}
variable {snapshot : List JoinedMembership}

theorem streamsOf_isSome {roster : List Participant} :
    (streamsOf roster memberId).isSome ↔ memberId ∈ idsOf roster := by
  unfold streamsOf idsOf
  rw [Option.isSome_map, List.find?_isSome]
  simp

theorem streamsOf_eq_none {roster : List Participant} :
    streamsOf roster memberId = none ↔ memberId ∉ idsOf roster := by
  rw [← streamsOf_isSome, Option.not_isSome_iff_eq_none]

theorem any_ids {roster : List Participant} :
    roster.any (·.memberId == memberId) = true ↔ memberId ∈ idsOf roster := by
  simp [idsOf]

namespace Announces

theorem refl (a : Actor) : Announces announce count a a where
  ownMemberId := rfl
  localTracks := rfl
  pool := rfl
  arrived := rfl
  told := ⟨[], (List.append_nil _).symm, by simp, rfl, fun _ _ _ => rfl⟩

theorem trans (first : Announces announce count a b) (second : Announces announce count b c) :
    Announces announce count a c where
  ownMemberId := second.ownMemberId.trans first.ownMemberId
  localTracks := second.localTracks.trans first.localTracks
  pool := second.pool.trans first.pool
  arrived := second.arrived.trans first.arrived
  told := by
    obtain ⟨events, are, counts, own, tells⟩ := first.told
    obtain ⟨later, are', counts', own', tells'⟩ := second.told
    refine ⟨events ++ later, by rw [are', are, List.append_assoc], ?_, ?_, ?_⟩
    · intro event there
      obtain there | there := List.mem_append.mp there
      · exact counts event there
      · exact counts' event there
    · rw [List.foldl_append, own, ← first.ownMemberId]
      exact own'
    · intro news memberId remote
      rw [List.foldl_append, tells news memberId remote]
      exact tells' news memberId (first.ownMemberId ▸ remote)

end Announces

theorem streamsOf_remove (roster : List Participant) (other : String) :
    streamsOf (roster.filter (·.memberId != other)) memberId =
      if memberId = other then none else streamsOf roster memberId := by
  unfold streamsOf
  rw [List.find?_filter]
  split_ifs with same
  · subst same
    rw [Option.map_eq_none_iff, List.find?_eq_none]
    simp
  · congr 1
    refine congrArg (fun f => List.find? f roster) (funext fun p => ?_)
    by_cases is_member : p.memberId = memberId
    · simp [is_member, same]
    · simp [is_member]

theorem announces_removeMember (a : Actor) (other : String) :
    Announces announce count a (a.removeMember other (a.announceFor announce count other)) where
  ownMemberId := rfl
  localTracks := rfl
  pool := rfl
  arrived := rfl
  told := by
    refine ⟨_, rfl, ?_, ?_, fun news memberId remote => ?_⟩
    · unfold Actor.announceFor
      split_ifs
      · simp [participantCount]
      · simp
    · unfold Actor.announceFor
      split_ifs
      · simp [said]
      · rfl
    · change _ = streamsOf (a.roster.filter (·.memberId != other)) memberId
      rw [streamsOf_remove]
      by_cases same : memberId = other
      · subst same
        have is_news : a.announceFor announce count memberId = some count := by
          unfold Actor.announceFor
          rw [if_pos (by simp [news, remote])]
        rw [if_pos rfl, is_news, Option.map_some, Option.toList_some, List.foldl_cons,
          List.foldl_nil, said, if_pos rfl]
      · rw [if_neg same]
        unfold Actor.announceFor
        split_ifs
        · exact if_neg (Ne.symm same)
        · rfl

/-- The departed are those on the roster that the snapshot does not name. -/
theorem removeDeparted_spec (a : Actor) (announce : Bool) (count : ℕ)
    (snapshot : List JoinedMembership) :
    Announces announce count a (a.removeDeparted snapshot (a.announceFor announce count)) ∧
      (a.removeDeparted snapshot (a.announceFor announce count)).roster =
        a.roster.filter fun p => (snapshot.map (·.memberId)).contains p.memberId := by
  unfold Actor.removeDeparted
  extract_lets departed
  have each (ps : List Participant) (b : Actor) (own : b.ownMemberId = a.ownMemberId) :
      Announces announce count b (ps.foldl
        (fun b p => b.removeMember p.memberId (a.announceFor announce count p.memberId)) b) ∧
      (ps.foldl (fun b p =>
        b.removeMember p.memberId (a.announceFor announce count p.memberId)) b).roster =
        b.roster.filter fun p => !(ps.map (·.memberId)).contains p.memberId := by
    induction ps generalizing b with
    | nil => exact ⟨.refl b, by simp⟩
    | cons p rest ih =>
        have same : a.announceFor announce count p.memberId =
            b.announceFor announce count p.memberId := by
          rw [Actor.announceFor, Actor.announceFor, own]
        rw [List.foldl_cons, same]
        have removed := @announces_removeMember announce count b p.memberId
        obtain ⟨announces, roster⟩ := ih _ (removed.ownMemberId.trans own)
        refine ⟨removed.trans announces, roster.trans ?_⟩
        change (b.roster.filter (·.memberId != p.memberId)).filter _ = _
        rw [List.filter_filter]
        refine List.filter_congr fun q _ => ?_
        rw [List.map_cons, List.contains_cons, Bool.not_or, Bool.and_comm]
        rfl
  refine ⟨(each departed a rfl).1, (each departed a rfl).2.trans (List.filter_congr fun p at_ => ?_)⟩
  rw [Bool.eq_iff_iff, Bool.not_eq_true', ← Bool.not_eq_true, List.contains_iff_mem,
    List.contains_iff_mem, List.mem_map]
  constructor
  · intro stays
    by_contra left
    exact stays ⟨p, List.mem_filter.mpr ⟨at_, by simpa using left⟩, rfl⟩
  · rintro named ⟨q, gone, same⟩
    have left := (List.mem_filter.mp gone).2
    rw [same, List.contains_iff_mem.mpr named] at left
    cases left

theorem streamsOf_append (roster : List Participant) (p : Participant) :
    streamsOf (roster ++ [p]) memberId =
      (streamsOf roster memberId).or (if p.memberId = memberId then some p.streams else none) := by
  unfold streamsOf
  rw [List.find?_append, Option.map_or, List.find?_singleton]
  congr 1
  by_cases same : p.memberId = memberId
  · rw [if_pos same, if_pos (beq_iff_eq.mpr same)]
    rfl
  · rw [if_neg same, if_neg (by simpa using same)]
    rfl

/-- The events of a participant's own streams say nothing of another. -/
theorem said_startEvents {other : String} {view : Option (List StreamState)}
    (unaware : memberId ≠ other ∨ view = none) (streams : List StreamState) :
    (Actor.startEvents other streams).foldl (said memberId) view = view := by
  unfold Actor.startEvents
  induction streams with
  | nil => rfl
  | cons stream rest ih =>
      have started : said memberId view (.streamStarted other stream.kind) = view := by
        obtain differs | rfl := unaware
        · exact if_neg (Ne.symm differs)
        · simp [said]
      have muted : said memberId view (.streamMuted other stream.kind) = view := by
        obtain differs | rfl := unaware
        · exact if_neg (Ne.symm differs)
        · simp [said]
      rw [List.flatMap_cons, List.foldl_append, List.foldl_cons, started]
      split_ifs
      · rw [List.foldl_cons, List.foldl_nil, muted]
        exact ih
      · exact ih

theorem ownPublishedStreams_remote (remote : memberId ≠ a.ownMemberId) :
    a.ownPublishedStreams memberId = [] := if_neg remote

theorem announces_addMember (a : Actor) (member : JoinedMembership)
    (new : member.memberId ∉ idsOf a.roster) :
    Announces announce count a
      (a.addMember member (a.announceFor announce count member.memberId)) where
  ownMemberId := rfl
  localTracks := rfl
  pool := rfl
  arrived := rfl
  told := by
    refine ⟨_, List.append_assoc _ _ _, ?_, ?_, fun news memberId remote => ?_⟩
    · intro event there
      obtain joined | started := List.mem_append.mp there
      · unfold Actor.announceFor at joined
        split_ifs at joined
        · cases List.mem_singleton.mp joined
          simp [participantCount]
        · cases joined
      · obtain ⟨stream, -, at_⟩ := List.mem_flatMap.mp started
        obtain rfl | at_ := List.mem_cons.mp at_
        · simp [participantCount]
        · split_ifs at at_
          · cases List.mem_singleton.mp at_
            simp [participantCount]
          · cases at_
    · rw [List.foldl_append]
      have untold : ((a.announceFor announce count member.memberId).map fun count =>
          CallEvent.participantJoined member.memberId member.sender count).toList.foldl
            (said a.ownMemberId) none = none := by
        unfold Actor.announceFor
        split_ifs with is_news
        · have remote : member.memberId ≠ a.ownMemberId :=
            bne_iff_ne.mp (Bool.and_eq_true_iff.mp is_news).2
          exact if_neg remote
        · rfl
      rw [untold]
      exact said_startEvents (.inr rfl) _
    · change _ = streamsOf (a.roster ++ [a.participantOf member]) memberId
      rw [streamsOf_append, List.foldl_append]
      by_cases same : member.memberId = memberId
      · have none_before : streamsOf a.roster memberId = none :=
          streamsOf_eq_none.mpr (same ▸ new)
        have is_news : a.announceFor announce count memberId = some count := by
          unfold Actor.announceFor
          rw [if_pos (by simp [news, remote])]
        have none_own := ownPublishedStreams_remote remote
        have streams : (a.participantOf member).streams = [] := by
          rw [← none_own, ← same]
          rfl
        rw [none_before, streams, if_pos (show (a.participantOf member).memberId = memberId from
          same), same, is_news, none_own]
        simp [said, Actor.startEvents]
      · rw [if_neg (show ¬ (a.participantOf member).memberId = memberId from same), Option.or_none,
          said_startEvents (.inl (Ne.symm same))]
        unfold Actor.announceFor
        split_ifs
        · exact if_neg same
        · rfl

/-- Putting the arrived on a roster: it is told, each has the participant that its membership
makes, and one participant is made for an id. -/
structure Arrived (snapshot : List JoinedMembership) (a b : Actor) : Prop where
  ids : ∀ memberId, memberId ∈ idsOf b.roster ↔
    memberId ∈ idsOf a.roster ∨ Named snapshot memberId
  nodup : (idsOf a.roster).Nodup → (idsOf b.roster).Nodup
  members : ∀ p ∈ b.roster, p ∈ a.roster ∨
    ∃ member ∈ snapshot, p = a.participantOf member ∧ member.memberId ∉ idsOf a.roster
  stays : ∀ p ∈ a.roster, p ∈ b.roster
  streams : ∀ memberId, streamsOf b.roster memberId =
    (streamsOf a.roster memberId).or
      (if Named snapshot memberId then some (a.ownPublishedStreams memberId) else none)

theorem ownPublishedStreams_congr (own : b.ownMemberId = a.ownMemberId)
    (tracks : b.localTracks = a.localTracks) (memberId : String) :
    b.ownPublishedStreams memberId = a.ownPublishedStreams memberId := by
  rw [Actor.ownPublishedStreams, Actor.ownPublishedStreams, own, tracks]

theorem participantOf_congr (own : b.ownMemberId = a.ownMemberId)
    (tracks : b.localTracks = a.localTracks) (member : JoinedMembership) :
    b.participantOf member = a.participantOf member := by
  rw [Actor.participantOf, Actor.participantOf, own, ownPublishedStreams_congr own tracks]

theorem named_cons {member : JoinedMembership} :
    Named (member :: snapshot) memberId ↔ member.memberId = memberId ∨ Named snapshot memberId := by
  simp [Named]

namespace Arrived

theorem nil (a : Actor) : Arrived [] a a where
  ids memberId := by simp [Named]
  nodup := id
  members p at_ := .inl at_
  stays p at_ := at_
  streams memberId := by simp [Named]

/-- A member that is on the roster, and then the others. -/
theorem skip {member : JoinedMembership} (there : member.memberId ∈ idsOf a.roster)
    (rest : Arrived snapshot a b) : Arrived (member :: snapshot) a b where
  ids memberId := by
    rw [rest.ids, named_cons]
    constructor
    · rintro (before | named)
      · exact .inl before
      · exact .inr (.inr named)
    · rintro (before | rfl | named)
      · exact .inl before
      · exact .inl there
      · exact .inr named
  nodup := rest.nodup
  members p at_ := by
    obtain before | ⟨other, at_, is_⟩ := rest.members p at_
    · exact .inl before
    · exact .inr ⟨other, .tail _ at_, is_⟩
  stays := rest.stays
  streams memberId := by
    simp only [rest.streams, named_cons]
    by_cases same : member.memberId = memberId
    · obtain ⟨streams, found⟩ := Option.isSome_iff_exists.mp
        (streamsOf_isSome.mpr (same ▸ there))
      rw [found, Option.some_or, Option.some_or]
    · simp [same]

/-- A member that is put on the roster, and then the others. -/
theorem cons {member : JoinedMembership} (new : member.memberId ∉ idsOf a.roster)
    (roster : b.roster = a.roster ++ [a.participantOf member])
    (own : b.ownMemberId = a.ownMemberId) (tracks : b.localTracks = a.localTracks)
    (rest : Arrived snapshot b c) : Arrived (member :: snapshot) a c where
  ids memberId := by
    rw [rest.ids, roster, named_cons, idsOf, List.map_append, List.mem_append, or_assoc,
      List.map_singleton, List.mem_singleton]
    refine or_congr_right (or_congr_left ?_)
    exact eq_comm
  nodup distinct := by
    refine rest.nodup ?_
    rw [roster, idsOf, List.map_append, List.map_singleton]
    refine List.nodup_append'.mpr ⟨distinct, List.nodup_singleton _, ?_⟩
    exact List.disjoint_singleton.mpr new
  members p at_ := by
    obtain before | ⟨other, at_, is_, fresh⟩ := rest.members p at_
    · rw [roster, List.mem_append, List.mem_singleton] at before
      obtain before | rfl := before
      · exact .inl before
      · exact .inr ⟨member, .head _, rfl, new⟩
    · refine .inr ⟨other, .tail _ at_, is_.trans (participantOf_congr own tracks other), ?_⟩
      intro there
      rw [roster, idsOf, List.map_append, List.mem_append] at fresh
      exact fresh (.inl there)
  stays p at_ := by
    refine rest.stays p ?_
    rw [roster]
    exact List.mem_append_left _ at_
  streams memberId := by
    simp only [rest.streams, roster, streamsOf_append, Option.or_assoc, named_cons,
      ownPublishedStreams_congr own tracks]
    congr 1
    by_cases same : member.memberId = memberId
    · rw [if_pos (show (a.participantOf member).memberId = memberId from same),
        Option.some_or, if_pos (show _ ∨ _ from Or.inl same), ← same]
      rfl
    · rw [if_neg (show ¬ (a.participantOf member).memberId = memberId from same), Option.none_or]
      simp [same]

end Arrived

theorem addArrived_spec (a : Actor) (announce : Bool) (count : ℕ)
    (snapshot : List JoinedMembership) :
    Announces announce count a (a.addArrived snapshot (a.announceFor announce count)) ∧
      Arrived snapshot a (a.addArrived snapshot (a.announceFor announce count)) := by
  unfold Actor.addArrived
  have each (b : Actor) (own : b.ownMemberId = a.ownMemberId) :
      Announces announce count b (snapshot.foldl (fun b member =>
        if b.roster.any (·.memberId == member.memberId) then b
        else b.addMember member (a.announceFor announce count member.memberId)) b) ∧
      Arrived snapshot b (snapshot.foldl (fun b member =>
        if b.roster.any (·.memberId == member.memberId) then b
        else b.addMember member (a.announceFor announce count member.memberId)) b) := by
    induction snapshot generalizing b with
    | nil => exact ⟨.refl b, .nil b⟩
    | cons member rest ih =>
        rw [List.foldl_cons]
        split_ifs with there
        · obtain ⟨announces, arrived⟩ := ih b own
          exact ⟨announces, arrived.skip (any_ids.mp there)⟩
        · have new : member.memberId ∉ idsOf b.roster := fun at_ => there (any_ids.mpr at_)
          have same : a.announceFor announce count member.memberId =
              b.announceFor announce count member.memberId := by
            rw [Actor.announceFor, Actor.announceFor, own]
          rw [same]
          have added := @announces_addMember announce count b member new
          obtain ⟨announces, arrived⟩ := ih _ (added.ownMemberId.trans own)
          exact ⟨added.trans announces,
            arrived.cons new rfl added.ownMemberId added.localTracks⟩
  exact each a rfl

/-- What a snapshot makes of the roster, before the pool has it. -/
theorem reconcileRoster_spec (a : Actor) (snapshot : List JoinedMembership) :
    Announces (a.arrived && !a.ended) (snapshot.map (·.memberId)).dedup.length
        { a with
          arrived := a.arrived || snapshot.any (·.memberId == a.ownMemberId)
          observedLapse := (a.arrived || snapshot.any (·.memberId == a.ownMemberId)) &&
            !snapshot.any (·.memberId == a.ownMemberId) }
        (a.reconcileRoster snapshot) ∧
      ∃ b, b.ownMemberId = a.ownMemberId ∧ b.localTracks = a.localTracks ∧
        b.roster = a.roster.filter (fun p =>
          (snapshot.map (·.memberId)).contains p.memberId) ∧
        Arrived snapshot b (a.reconcileRoster snapshot) := by
  unfold Actor.reconcileRoster
  extract_lets withUs arrived count announceFor b
  obtain ⟨removed, roster⟩ := removeDeparted_spec b (a.arrived && !a.ended) count snapshot
  have same : announceFor = (b.removeDeparted snapshot announceFor).announceFor
      (a.arrived && !a.ended) count := by
    funext memberId
    have own : (b.removeDeparted snapshot announceFor).ownMemberId = a.ownMemberId :=
      removed.ownMemberId
    simp only [announceFor, Actor.announceFor, own]
  obtain ⟨added, onto⟩ := addArrived_spec (b.removeDeparted snapshot announceFor)
    (a.arrived && !a.ended) count snapshot
  rw [← same] at added onto
  exact ⟨removed.trans added,
    _, removed.ownMemberId, removed.localTracks, roster, onto⟩

end

end MatrixRtc.EngineSnapshots

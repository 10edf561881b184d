import MatrixRtc.PoolMoves

/-!
# The members of a media pool

Which identity is whose, over whole runs. What a snapshot does to it is given as what each
departure and each arrival does, and from it what all of them together do; the other calls
leave it alone.
-/
namespace MatrixRtc.PoolMembers
open MemberEvents MediaTransports Tables MediaPools PoolMoves

/-- The two maps agree, on members that are known, and nobody mapped counts as unmapped. -/
structure Attributed (p : MediaPool) : Prop where
  named : ∀ {identity memberId}, p.identityMap.lookup identity = some memberId →
    p.memberIdentities.lookup memberId = some identity
  known : ∀ {identity memberId}, p.identityMap.lookup identity = some memberId →
    memberId ∈ p.knownMembers
  mapped : ∀ {identity}, identity ∈ p.unmapped → p.identityMap.lookup identity = none
  streams : ∀ {s : Stream}, s ∈ p.tracks → s.1 ∈ p.knownMembers

section
variable {p q : MediaPool}

theorem attributed_new (config : PoolConfig) : Attributed (.new config) where
  named h := by cases h
  known h := by cases h
  mapped h := by cases h
  streams h := by cases h

theorem Attributed.moved (inv : Attributed p) (h : Moves p q) : Attributed q where
  named := by rw [h.mapping, h.identities]; exact inv.named
  known := by rw [h.mapping, h.known]; exact inv.known
  mapped there := by
    rw [h.mapping]
    obtain before | none_ := h.unmapped _ there
    · exact inv.mapped before
    · exact none_
  streams there := by
    rw [h.known]
    obtain before | ⟨identity, mapped⟩ := h.attributed _ there
    · exact inv.streams before
    · exact inv.known mapped

theorem forgetMember_lookup (p : MediaPool) (memberId identity : String) :
    (p.forgetMember memberId).identityMap.lookup identity =
      (p.identityMap.lookup identity).filter (· != memberId) := lookup_retain _ _ _

theorem mem_forgetMember_tracks {memberId : String} {s : Stream} :
    s ∈ (p.forgetMember memberId).tracks ↔ s ∈ p.tracks ∧ s.1 ≠ memberId := by
  rw [← AList.lookup_isSome, ← AList.lookup_isSome]
  change ((retain p.tracks _).lookup s).isSome = true ↔ _
  rw [lookup_retain]
  cases found : p.tracks.lookup s <;> simp [Option.filter]

theorem Attributed.forgetMember (inv : Attributed p) (memberId : String) :
    Attributed (p.forgetMember memberId) where
  named {identity other} mapped := by
    obtain ⟨before, stays⟩ := of_lookup_retain mapped
    change (p.memberIdentities.erase memberId).lookup other = some identity
    rw [AList.lookup_erase_ne (by simpa using stays)]
    exact inv.named before
  known mapped := by
    obtain ⟨before, stays⟩ := of_lookup_retain mapped
    exact List.mem_filter.mpr ⟨inv.known before, stays⟩
  mapped there := by
    rw [forgetMember_lookup, inv.mapped there]
    rfl
  streams there := by
    obtain ⟨before, stays⟩ := mem_forgetMember_tracks.mp there
    exact List.mem_filter.mpr ⟨inv.streams before, by simpa using stays⟩

/-- What the departure of `departed` leaves, of what a snapshot is applied to. -/
structure Departed (departed : List String) (p q : MediaPool) : Prop where
  transports : q.transports = p.transports
  mapping : ∀ identity, q.identityMap.lookup identity =
    (p.identityMap.lookup identity).filter fun memberId => memberId ∉ departed
  known : ∀ memberId, memberId ∈ q.knownMembers ↔
    memberId ∈ p.knownMembers ∧ memberId ∉ departed
  streams : ∀ s : Stream, s ∈ q.tracks ↔ s ∈ p.tracks ∧ s.1 ∉ departed
  out : q.out = p.out

theorem departed_foldl (departed : List String) (p : MediaPool) :
    Departed departed p (departed.foldl MediaPool.forgetMember p) := by
  induction departed generalizing p with
  | nil =>
      refine ⟨rfl, fun identity => ?_, fun _ => by simp, fun _ => by simp, rfl⟩
      cases found : p.identityMap.lookup identity <;> simp [found, Option.filter]
  | cons memberId rest ih =>
      obtain ⟨transports, mapping, known, streams, out⟩ := ih (p.forgetMember memberId)
      refine ⟨transports, fun identity => ?_, fun other => ?_, fun s => ?_, out⟩
      · refine (mapping identity).trans ?_
        rw [forgetMember_lookup, Option.filter_filter]
        congr 1
        funext other
        simp [not_or, bne, beq_eq_decide]
      · refine (known other).trans ?_
        simp [MediaPool.forgetMember, and_assoc]
      · refine (streams s).trans ?_
        rw [mem_forgetMember_tracks, List.mem_cons, not_or, and_assoc]

theorem Attributed.forgetAll (inv : Attributed p) (departed : List String) :
    Attributed (departed.foldl MediaPool.forgetMember p) := by
  induction departed generalizing p with
  | nil => exact inv
  | cons memberId rest ih => exact ih (inv.forgetMember memberId)

/-- Who the snapshot names. -/
def Named (snapshot : List JoinedMembership) (memberId : String) : Prop :=
  ∃ member ∈ snapshot, member.memberId = memberId

theorem named_iff {snapshot : List JoinedMembership} {memberId : String} :
    Named snapshot memberId ↔ memberId ∈ snapshot.map (·.memberId) := List.mem_map.symm

instance (snapshot : List JoinedMembership) : DecidablePred (Named snapshot) :=
  fun _ => decidable_of_iff _ named_iff.symm

/-- Of what is attributed, that of the members the snapshot names remains. -/
structure Remains (snapshot : List JoinedMembership) (p q : MediaPool) : Prop where
  attributed : Attributed q
  transports : q.transports = p.transports
  mapping : ∀ identity, q.identityMap.lookup identity =
    (p.identityMap.lookup identity).filter fun memberId => Named snapshot memberId
  known : ∀ memberId, memberId ∈ q.knownMembers ↔
    memberId ∈ p.knownMembers ∧ Named snapshot memberId
  streams : ∀ s : Stream, s ∈ q.tracks ↔ s ∈ p.tracks ∧ Named snapshot s.1
  out : q.out = p.out

theorem remains_forgetDeparted (inv : Attributed p) (snapshot : List JoinedMembership) :
    Remains snapshot p (p.forgetDeparted snapshot) := by
  obtain ⟨transports, mapping, known, streams, out⟩ := departed_foldl
    (p.knownMembers.filter fun memberId => !(snapshot.map (·.memberId)).contains memberId) p
  have stays {memberId : String} (h : memberId ∈ p.knownMembers) :
      memberId ∉ (p.knownMembers.filter fun memberId =>
        !(snapshot.map (·.memberId)).contains memberId) ↔ Named snapshot memberId := by
    rw [named_iff, List.mem_filter]
    simp [h]
  refine
    { attributed := inv.forgetAll _
      transports := transports
      mapping := fun identity => (mapping identity).trans ?_
      known := fun memberId => (known memberId).trans (and_congr_right fun h => stays h)
      streams := fun s => (streams s).trans (and_congr_right fun h => stays (inv.streams h))
      out := out }
  cases found : p.identityMap.lookup identity with
  | none => rfl
  | some memberId =>
      rw [Option.filter, Option.filter, decide_eq_decide.mpr (stays (inv.known found))]

theorem moves_flushTracks {memberId identity : String}
    (mapped : p.identityMap.lookup identity = some memberId) :
    Moves p (p.flushTracks memberId identity) := by
  unfold MediaPool.flushTracks
  extract_lets pending
  have taken : Moves p { p with pendingTracks := p.pendingTracks.erase identity } :=
    .of_same rfl rfl rfl rfl
  refine taken.trans ?_
  have still : ({ p with pendingTracks := p.pendingTracks.erase identity } :
      MediaPool).identityMap.lookup identity = some memberId := mapped
  generalize ({ p with pendingTracks := p.pendingTracks.erase identity } : MediaPool) = q at still
  induction pending generalizing q with
  | nil => exact .refl q
  | cons buffered rest ih =>
      have added := moves_addTrack buffered.1 buffered.2 still
      exact added.trans (ih _ (added.mapping ▸ still))

theorem quiet_flushKeys (memberId identity : String) : Quiet p (p.flushKeys memberId identity) :=
  Quiet.trans (q := { p with pendingKeys := p.pendingKeys.erase identity })
    (.of_same rfl rfl rfl rfl) (Quiet.foldl (fun _ (_ : UInt8) => quiet_emit fun _ => rfl) _ _)

theorem moves_mapMember {member : JoinedMembership} {identity : String}
    (is_identity : remoteIdentity p.transports member = some identity) :
    Moves (p.mapIdentity member.memberId identity) (p.mapMember member) := by
  unfold MediaPool.mapMember
  rw [is_identity]
  have mapped : (p.mapIdentity member.memberId identity).identityMap.lookup identity =
      some member.memberId := AList.lookup_insert _
  refine (moves_flushTracks mapped).trans (Moves.trans ?_ (quiet_flushKeys _ _).toMoves)
  split_ifs
  · exact (quiet_emit fun _ => rfl).toMoves
  · exact .refl _

/-- An identity goes to a member that has none. -/
theorem Attributed.mapIdentity (inv : Attributed p) {memberId identity : String}
    (there : memberId ∈ p.knownMembers)
    (fresh : ∀ other, p.identityMap.lookup other ≠ some memberId) :
    Attributed (p.mapIdentity memberId identity) where
  named {other otherId} mapped := by
    change (p.memberIdentities.insert memberId identity).lookup otherId = some other
    obtain ⟨rfl, rfl⟩ | ⟨-, before⟩ := of_lookup_insert mapped
    · exact AList.lookup_insert _
    · rw [AList.lookup_insert_ne fun same => fresh other (before.trans (congrArg some same))]
      exact inv.named before
  known mapped := by
    obtain ⟨-, rfl⟩ | ⟨-, before⟩ := of_lookup_insert mapped
    · exact there
    · exact inv.known before
  mapped {other} left := by
    obtain ⟨differs, before⟩ := AList.mem_erase.mp left
    exact (AList.lookup_insert_ne differs).trans (inv.mapped before)
  streams there := inv.streams there

theorem joinMember_known {member : JoinedMembership} (known : member.memberId ∈ p.knownMembers) :
    p.joinMember member = p := if_pos (List.contains_iff_mem.mpr known)

theorem joinMember_new {member : JoinedMembership} (new : member.memberId ∉ p.knownMembers) :
    Moves
      (match remoteIdentity p.transports member with
        | some identity => ({ p with knownMembers := member.memberId :: p.knownMembers } :
            MediaPool).mapIdentity member.memberId identity
        | none => { p with knownMembers := member.memberId :: p.knownMembers })
      (p.joinMember member) := by
  rw [MediaPool.joinMember, if_neg fun known => new (List.contains_iff_mem.mp known)]
  cases is_identity : remoteIdentity p.transports member with
  | some identity => exact moves_mapMember is_identity
  | none =>
      rw [MediaPool.mapMember, show remoteIdentity _ member = none from is_identity]
      exact .refl _

theorem told_joinMember (member : JoinedMembership) : Told p (p.joinMember member) := by
  by_cases known : member.memberId ∈ p.knownMembers
  · rw [joinMember_known known]
    exact .refl p
  · refine Told.trans (Told.of_same ?_ ?_) (joinMember_new known).told
    · split <;> rfl
    · split <;> rfl

theorem Attributed.joinMember (inv : Attributed p) (member : JoinedMembership) :
    Attributed (p.joinMember member) := by
  by_cases known : member.memberId ∈ p.knownMembers
  · rw [joinMember_known known]
    exact inv
  · have entered : Attributed { p with knownMembers := member.memberId :: p.knownMembers } :=
      { named := inv.named
        known := fun mapped => List.mem_cons_of_mem _ (inv.known mapped)
        mapped := inv.mapped
        streams := fun there => List.mem_cons_of_mem _ (inv.streams there) }
    refine Attributed.moved ?_ (joinMember_new known)
    split
    · refine entered.mapIdentity List.mem_cons_self fun other mapped => known (inv.known mapped)
    · exact entered

theorem transports_joinMember (member : JoinedMembership) :
    (p.joinMember member).transports = p.transports := by
  by_cases known : member.memberId ∈ p.knownMembers
  · rw [joinMember_known known]
  · refine (joinMember_new known).transports.trans ?_
    split <;> rfl

theorem mem_known_joinMember {member : JoinedMembership} {memberId : String} :
    memberId ∈ (p.joinMember member).knownMembers ↔
      memberId = member.memberId ∨ memberId ∈ p.knownMembers := by
  by_cases known : member.memberId ∈ p.knownMembers
  · rw [joinMember_known known]
    exact (or_iff_right_of_imp fun same => same ▸ known).symm
  · rw [(joinMember_new known).known, ← List.mem_cons]
    split <;> rfl

/-- Whose an identity is after an arrival. -/
theorem lookup_joinMember (p : MediaPool) (member : JoinedMembership) (identity : String) :
    (p.joinMember member).identityMap.lookup identity =
      if member.memberId ∉ p.knownMembers ∧
          remoteIdentity p.transports member = some identity then
        some member.memberId
      else p.identityMap.lookup identity := by
  by_cases known : member.memberId ∈ p.knownMembers
  · rw [joinMember_known known, if_neg fun h => h.1 known]
  · rw [(joinMember_new known).mapping]
    cases is_identity : remoteIdentity p.transports member with
    | none => rw [if_neg fun h => nomatch h.2]
    | some own =>
        by_cases same : identity = own
        · subst same
          rw [if_pos ⟨known, rfl⟩]
          exact AList.lookup_insert _
        · rw [if_neg fun h => same (Option.some.inj h.2).symm]
          exact AList.lookup_insert_ne same

/-- The identity of a member on the media plane, as the first membership under its id in the
snapshot has it. -/
def arrivalIdentity (transports : List MediaTransport) (snapshot : List JoinedMembership)
    (memberId : String) : Option String :=
  (snapshot.find? (·.memberId == memberId)).bind (remoteIdentity transports)

theorem transports_joinAll (snapshot : List JoinedMembership) (p : MediaPool) :
    (snapshot.foldl MediaPool.joinMember p).transports = p.transports := by
  induction snapshot generalizing p with
  | nil => rfl
  | cons member rest ih => exact (ih (p.joinMember member)).trans (transports_joinMember member)

theorem told_joinAll (snapshot : List JoinedMembership) (p : MediaPool) :
    Told p (snapshot.foldl MediaPool.joinMember p) := by
  induction snapshot generalizing p with
  | nil => exact .refl p
  | cons member rest ih => exact (told_joinMember member).trans (ih (p.joinMember member))

theorem Attributed.joinAll (inv : Attributed p) (snapshot : List JoinedMembership) :
    Attributed (snapshot.foldl MediaPool.joinMember p) := by
  induction snapshot generalizing p with
  | nil => exact inv
  | cons member rest ih => exact ih (inv.joinMember member)

theorem lookup_joinAll_of_known {identity : String} (snapshot : List JoinedMembership)
    (p : MediaPool)
    (none_new : ∀ member ∈ snapshot, remoteIdentity p.transports member = some identity →
      member.memberId ∈ p.knownMembers) :
    (snapshot.foldl MediaPool.joinMember p).identityMap.lookup identity =
      p.identityMap.lookup identity := by
  induction snapshot generalizing p with
  | nil => rfl
  | cons member rest ih =>
      refine (ih (p.joinMember member) fun other there has => ?_).trans ?_
      · rw [transports_joinMember] at has
        exact mem_known_joinMember.mpr (.inr (none_new other (.tail _ there) has))
      · rw [lookup_joinMember, if_neg fun h => h.1 (none_new member (.head _) h.2)]

/-- An identity that one new member arrives with, and nobody else has, is that member's. -/
theorem lookup_joinAll_of_new {identity memberId : String} (snapshot : List JoinedMembership)
    (p : MediaPool) (new : memberId ∉ p.knownMembers)
    (arrives : arrivalIdentity p.transports snapshot memberId = some identity)
    (alone : ∀ member ∈ snapshot, remoteIdentity p.transports member = some identity →
      member.memberId = memberId) :
    (snapshot.foldl MediaPool.joinMember p).identityMap.lookup identity = some memberId := by
  induction snapshot generalizing p with
  | nil => cases arrives
  | cons member rest ih =>
      rw [arrivalIdentity, List.find?_cons] at arrives
      by_cases same : member.memberId = memberId
      · subst same
        rw [beq_self_eq_true] at arrives
        refine (lookup_joinAll_of_known rest _ fun other there has => ?_).trans ?_
        · rw [transports_joinMember] at has
          exact mem_known_joinMember.mpr (.inl (alone other (.tail _ there) has))
        · rw [lookup_joinMember, if_pos ⟨new, arrives⟩]
      · rw [beq_false_of_ne same] at arrives
        refine ih (p.joinMember member) (fun there => ?_) ?_ fun other there has => ?_
        · obtain rfl | before := mem_known_joinMember.mp there
          · exact same rfl
          · exact new before
        · rw [transports_joinMember]
          exact arrives
        · rw [transports_joinMember] at has
          exact alone other (.tail _ there) has

/-- Whoever an identity maps to had it before, or arrived with it. -/
theorem of_lookup_joinAll {identity memberId : String} (snapshot : List JoinedMembership)
    (p : MediaPool)
    (mapped : (snapshot.foldl MediaPool.joinMember p).identityMap.lookup identity =
      some memberId) :
    p.identityMap.lookup identity = some memberId ∨
      memberId ∉ p.knownMembers ∧
        arrivalIdentity p.transports snapshot memberId = some identity := by
  induction snapshot generalizing p with
  | nil => exact .inl mapped
  | cons member rest ih =>
      obtain before | ⟨new, arrives⟩ := ih (p.joinMember member) mapped
      · rw [lookup_joinMember] at before
        split_ifs at before with arrived
        · cases before
          refine .inr ⟨arrived.1, ?_⟩
          rw [arrivalIdentity, List.find?_cons, beq_self_eq_true]
          exact arrived.2
        · exact .inl before
      · rw [mem_known_joinMember, not_or] at new
        rw [transports_joinMember] at arrives
        refine .inr ⟨new.2, ?_⟩
        rw [arrivalIdentity, List.find?_cons, beq_false_of_ne (Ne.symm new.1)]
        exact arrives

theorem Attributed.applySnapshot (inv : Attributed p) (snapshot : List JoinedMembership) :
    Attributed (p.applySnapshot snapshot) := by
  have joined := (remains_forgetDeparted inv snapshot).attributed.joinAll snapshot
  have noted : Attributed { snapshot.foldl MediaPool.joinMember (p.forgetDeparted snapshot) with
      membersSnapshot := snapshot } :=
    { named := joined.named, known := joined.known, mapped := joined.mapped
      streams := joined.streams }
  exact noted.moved moves_reconcilePool

theorem told_applySnapshot (p : MediaPool) (snapshot : List JoinedMembership) :
    Told (p.forgetDeparted snapshot) (p.applySnapshot snapshot) :=
  (told_joinAll snapshot _).trans
    (Told.trans (Told.of_same rfl rfl) moves_reconcilePool.told)

theorem Attributed.perform (inv : Attributed p) (input : Input) :
    Attributed (p.perform input) := by
  by_cases applies : ∃ snapshot, input.call = .applySnapshot snapshot
  · obtain ⟨snapshot, call⟩ := applies
    rw [MediaPool.perform, call]
    exact inv.applySnapshot snapshot
  · exact inv.moved (moves_perform fun snapshot call => applies ⟨snapshot, call⟩)

theorem Attributed.take (inv : Attributed p) : Attributed p.take.1 where
  named := inv.named
  known := inv.known
  mapped := inv.mapped
  streams := inv.streams

/-- Alice's pool, over the scripted backend; a join stands for the homeserver's hash. -/
def aliceConfig : PoolConfig :=
  { transports := [scriptedTransport fun sender memberId => sender ++ "|" ++ memberId]
    ownMemberId := "alice-1", ownConnectionKey := none, ownReconnectBudget := 60000
    sfuFallback := false }

def jwtTransport (service : String) : RtcTransport :=
  .liveKit ⟨none, some service, none, .inr rfl, LiveKitTransport.unqualified⟩

/-- Bob's membership, with the transports it names. -/
def bobNaming (transports : List RtcTransport) : JoinedMembership :=
  { roomId := "!room:x", slotId := "m.call#ROOM", sender := "@bob:x"
    origin := .encrypted (some "DEVICE"), stickyKey := "bob", memberId := "bob-1"
    membershipEventId := none, membershipTs := none, originServerTs := none
    application := ⟨some "m.call", []⟩, transports := transports, canSubscribe := [] }

def bobOnB : JoinedMembership := bobNaming [jwtTransport "https://b.x"]

end

end MatrixRtc.PoolMembers

import MatrixRtc.PoolMembers

/-!
# Whose the identities are after a snapshot

A member is mapped to its identity where it first appears, and unmapped where it departs,
so that the maps follow a snapshot exactly where the members that stay have the identities
they were mapped under.
-/
namespace MatrixRtc.PoolAttribution
open MemberEvents MediaTransports Tables MediaPools PoolMoves PoolMembers

/-- The pool after a call whose events were taken. -/
def step (p : MediaPool) (input : Input) : MediaPool := (p.perform input).take.1

/-- The pool after a run of calls. -/
def reached (config : PoolConfig) (inputs : List Input) : MediaPool :=
  inputs.foldl step (.new config)

/-- The member has the identity, and no other member of the snapshot has it. -/
def Alone (transports : List MediaTransport) (snapshot : List JoinedMembership)
    (member : JoinedMembership) (identity : String) : Prop :=
  remoteIdentity transports member = some identity ∧
    ∀ other ∈ snapshot, remoteIdentity transports other = some identity →
      other.memberId = member.memberId

/-- Attribution follows the membership. -/
structure Follows (snapshot : List JoinedMembership) (q : MediaPool) : Prop where
  members : ∀ member ∈ snapshot, ∀ identity, Alone q.transports snapshot member identity →
    q.identityMap.lookup identity = some member.memberId ∧
      q.memberIdentities.lookup member.memberId = some identity ∧
      (∀ other, q.identityMap.lookup other = some member.memberId → other = identity) ∧
      identity ∉ q.unmapped
  present : ∀ identity memberId, q.identityMap.lookup identity = some memberId →
    Named snapshot memberId
  absent : ∀ identity,
    (∀ member ∈ snapshot, remoteIdentity q.transports member ≠ some identity) →
      q.identityMap.lookup identity = none

/-- The members that stay have the identities they are mapped under, and are still mapped;
those that arrive have them from their first membership on. -/
structure Continues (snapshot : List JoinedMembership) (p : MediaPool) : Prop where
  stayed : ∀ member ∈ snapshot, ∀ identity, Alone p.transports snapshot member identity →
    member.memberId ∈ p.knownMembers →
      p.identityMap.lookup identity = some member.memberId
  arrived : ∀ member ∈ snapshot, ∀ identity, Alone p.transports snapshot member identity →
    member.memberId ∉ p.knownMembers →
      arrivalIdentity p.transports snapshot member.memberId = some identity
  held : ∀ identity memberId, p.identityMap.lookup identity = some memberId →
    Named snapshot memberId →
      ∃ member ∈ snapshot, remoteIdentity p.transports member = some identity

section
variable {p : MediaPool}

theorem attributed_reached (config : PoolConfig) (inputs : List Input) :
    Attributed (reached config inputs) := by
  unfold reached
  have start := attributed_new config
  generalize MediaPool.new config = p at start
  induction inputs generalizing p with
  | nil => exact start
  | cons input rest ih => exact ih _ (start.perform input).take

theorem transports_applySnapshot (inv : Attributed p) (snapshot : List JoinedMembership) :
    (p.applySnapshot snapshot).transports = p.transports := by
  refine (moves_reconcilePool.transports).trans ?_
  exact (transports_joinAll snapshot _).trans (remains_forgetDeparted inv snapshot).transports

theorem mapping_applySnapshot (p : MediaPool) (snapshot : List JoinedMembership) :
    (p.applySnapshot snapshot).identityMap =
      (snapshot.foldl MediaPool.joinMember (p.forgetDeparted snapshot)).identityMap :=
  moves_reconcilePool.mapping

theorem lookup_forgetDeparted (inv : Attributed p) {snapshot : List JoinedMembership}
    {identity memberId : String} :
    (p.forgetDeparted snapshot).identityMap.lookup identity = some memberId ↔
      p.identityMap.lookup identity = some memberId ∧ Named snapshot memberId := by
  rw [(remains_forgetDeparted inv snapshot).mapping, Option.filter_eq_some_iff, decide_eq_true_eq]

theorem arrivalIdentity_named {transports : List MediaTransport}
    {snapshot : List JoinedMembership} {memberId identity : String}
    (arrives : arrivalIdentity transports snapshot memberId = some identity) :
    ∃ member ∈ snapshot, member.memberId = memberId ∧
      remoteIdentity transports member = some identity := by
  obtain ⟨member, found, has⟩ := Option.bind_eq_some_iff.mp arrives
  exact ⟨member, List.mem_of_find?_eq_some found,
    by simpa using List.find?_some found, has⟩

theorem of_lookup_applySnapshot (inv : Attributed p) {snapshot : List JoinedMembership}
    {identity memberId : String}
    (mapped : (p.applySnapshot snapshot).identityMap.lookup identity = some memberId) :
    p.identityMap.lookup identity = some memberId ∧ Named snapshot memberId ∨
      memberId ∉ p.knownMembers ∧
        arrivalIdentity p.transports snapshot memberId = some identity := by
  rw [mapping_applySnapshot] at mapped
  have ⟨_, transports, _, known, _, _⟩ := remains_forgetDeparted inv snapshot
  obtain stayed | ⟨new, arrives⟩ := of_lookup_joinAll snapshot _ mapped
  · exact .inl ((lookup_forgetDeparted inv).mp stayed)
  · rw [transports] at arrives
    obtain ⟨member, there, named, -⟩ := arrivalIdentity_named arrives
    exact .inr ⟨fun before => new ((known memberId).mpr ⟨before, member, there, named⟩), arrives⟩

theorem lookup_applySnapshot_of_stayed (inv : Attributed p) {snapshot : List JoinedMembership}
    {member : JoinedMembership} {identity : String} (there : member ∈ snapshot)
    (alone : Alone p.transports snapshot member identity)
    (stayed : member.memberId ∈ p.knownMembers) :
    (p.applySnapshot snapshot).identityMap.lookup identity =
      (p.forgetDeparted snapshot).identityMap.lookup identity := by
  have ⟨_, transports, _, known, _, _⟩ := remains_forgetDeparted inv snapshot
  rw [mapping_applySnapshot]
  refine lookup_joinAll_of_known snapshot _ fun other otherThere has => ?_
  rw [alone.2 other otherThere (transports ▸ has)]
  exact (known _).mpr ⟨stayed, member, there, rfl⟩

theorem lookup_applySnapshot_of_arrived (inv : Attributed p) {snapshot : List JoinedMembership}
    {member : JoinedMembership} {identity : String}
    (alone : Alone p.transports snapshot member identity)
    (new : member.memberId ∉ p.knownMembers)
    (arrives : arrivalIdentity p.transports snapshot member.memberId = some identity) :
    (p.applySnapshot snapshot).identityMap.lookup identity = some member.memberId := by
  have ⟨_, transports, _, known, _, _⟩ := remains_forgetDeparted inv snapshot
  rw [mapping_applySnapshot]
  refine lookup_joinAll_of_new snapshot _ (fun there => new ((known _).mp there).1) ?_ ?_
  · rw [transports]
    exact arrives
  · rw [transports]
    exact alone.2

theorem follows_of_continues (inv : Attributed p) {snapshot : List JoinedMembership}
    (h : Continues snapshot p) : Follows snapshot (p.applySnapshot snapshot) := by
  have after := inv.applySnapshot snapshot
  refine ⟨fun member there identity alone => ?_, fun identity memberId mapped => ?_,
    fun identity unheld => ?_⟩
  · rw [transports_applySnapshot inv] at alone
    have mapped : (p.applySnapshot snapshot).identityMap.lookup identity =
        some member.memberId := by
      by_cases stayed : member.memberId ∈ p.knownMembers
      · rw [lookup_applySnapshot_of_stayed inv there alone stayed, lookup_forgetDeparted inv]
        exact ⟨h.stayed member there identity alone stayed, member, there, rfl⟩
      · exact lookup_applySnapshot_of_arrived inv alone stayed
          (h.arrived member there identity alone stayed)
    refine ⟨mapped, after.named mapped, fun other otherMapped => ?_, fun left => ?_⟩
    · exact Option.some.inj ((after.named otherMapped).symm.trans (after.named mapped))
    · rw [after.mapped left] at mapped
      cases mapped
  · obtain ⟨-, named⟩ | ⟨-, arrives⟩ := of_lookup_applySnapshot inv mapped
    · exact named
    · obtain ⟨member, there, same, -⟩ := arrivalIdentity_named arrives
      exact ⟨member, there, same⟩
  · rw [transports_applySnapshot inv] at unheld
    refine Option.eq_none_iff_forall_ne_some.mpr fun memberId mapped => ?_
    obtain ⟨before, named⟩ | ⟨-, arrives⟩ := of_lookup_applySnapshot inv mapped
    · obtain ⟨member, there, has⟩ := h.held identity memberId before named
      exact unheld member there has
    · obtain ⟨member, there, -, has⟩ := arrivalIdentity_named arrives
      exact unheld member there has

theorem continues_of_follows (inv : Attributed p) {snapshot : List JoinedMembership}
    (h : Follows snapshot (p.applySnapshot snapshot)) : Continues snapshot p := by
  obtain ⟨members, -, absent⟩ := h
  rw [transports_applySnapshot inv] at members absent
  refine ⟨fun member there identity alone stayed => ?_,
    fun member there identity alone new => ?_, fun identity memberId mapped named => ?_⟩
  · obtain ⟨mapped, -⟩ := members member there identity alone
    rw [lookup_applySnapshot_of_stayed inv there alone stayed, lookup_forgetDeparted inv]
      at mapped
    exact mapped.1
  · obtain ⟨mapped, -⟩ := members member there identity alone
    obtain ⟨before, -⟩ | ⟨-, arrives⟩ := of_lookup_applySnapshot inv mapped
    · exact absurd (inv.known before) new
    · exact arrives
  · -- nobody of the snapshot has it: nobody takes it over, and it stays mapped
    by_contra unheld
    have unheld : ∀ member ∈ snapshot, remoteIdentity p.transports member ≠ some identity :=
      fun member there has => unheld ⟨member, there, has⟩
    have cleared := absent identity unheld
    have kept := (lookup_forgetDeparted inv).mpr ⟨mapped, named⟩
    have transports := (remains_forgetDeparted inv snapshot).transports
    rw [mapping_applySnapshot, lookup_joinAll_of_known snapshot _ fun member there has =>
      absurd (transports ▸ has) (unheld member there), kept] at cleared
    cases cleared

end

/-- After any run, attribution follows a snapshot exactly where the members that stay in it
have the identities they are mapped under. -/
theorem attribution_follows (config : PoolConfig) (inputs : List Input)
    (snapshot : List JoinedMembership) (now : ℕ) (takeOver : Except TransportError Unit) :
    Follows snapshot
        (step (reached config inputs) ⟨.applySnapshot snapshot, now, takeOver⟩) ↔
      Continues snapshot (reached config inputs) := by
  have inv := attributed_reached config inputs
  refine Iff.trans ?_ ⟨continues_of_follows inv, follows_of_continues inv⟩
  exact ⟨fun h => ⟨h.members, h.present, h.absent⟩, fun h => ⟨h.members, h.present, h.absent⟩⟩

/-- A member that names its transport only after it joined is never mapped: its identity is
nobody's after the snapshot. -/
theorem named_later_not_mapped :
    ¬ ∀ (config : PoolConfig) (inputs : List Input) (snapshot : List JoinedMembership) (now : ℕ)
        (takeOver : Except TransportError Unit),
      Follows snapshot
        (step (reached config inputs) ⟨.applySnapshot snapshot, now, takeOver⟩) := by
  intro h
  have follows := h aliceConfig [⟨.applySnapshot [bobNaming []], 0, .ok ()⟩]
    [bobNaming [jwtTransport "https://jwt.x"]] 1 (.ok ())
  have mapped := (follows.members (bobNaming [jwtTransport "https://jwt.x"]) (.head _)
    "@bob:x:DEVICE" ⟨by decide +kernel, fun other there _ => by rw [List.mem_singleton.mp there]⟩).1
  exact absurd mapped (by decide +kernel)

end MatrixRtc.PoolAttribution

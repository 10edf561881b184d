import MatrixRtc.PoolMembers

/-!
# What a media pool signals of members

A host is told that a member sent in the clear, and how its frames decrypt: by the events
of connections, and where a member arrives whose identity sent in the clear before. Nothing
else a pool does signals either.
-/
namespace MatrixRtc.PoolSignals
open MemberEvents MediaTransports Tables MediaPools PoolMoves PoolMembers

def isSignal : PoolEvent → Bool
  | .sentInClear _ | .encryptionStateChanged _ _ => true
  | _ => false

/-- Who sent in the clear, and what was signalled. -/
def signals (p : MediaPool) : List String × List PoolEvent :=
  (p.sentInClear, p.out.filter isSignal)

/-- Nothing is signalled, and nobody sends in the clear who did not before. -/
structure Silent (p q : MediaPool) : Prop where
  signals : signals q = signals p

section
variable {p q r : MediaPool}

namespace Silent

theorem refl (p : MediaPool) : Silent p p := ⟨rfl⟩

theorem trans (first : Silent p q) (second : Silent q r) : Silent p r :=
  ⟨second.signals.trans first.signals⟩

theorem foldl {α : Type} {f : MediaPool → α → MediaPool} (each : ∀ p x, Silent p (f p x))
    (xs : List α) (p : MediaPool) : Silent p (xs.foldl f p) := by
  induction xs generalizing p with
  | nil => exact .refl p
  | cons x rest ih => exact (each p x).trans (ih (f p x))

theorem clear (h : Silent p q) : q.sentInClear = p.sentInClear := congrArg Prod.fst h.signals

theorem out (h : Silent p q) : q.out.filter isSignal = p.out.filter isSignal :=
  congrArg Prod.snd h.signals

end Silent

theorem signals_emit (p : MediaPool) (event : PoolEvent) :
    signals (p.emit event) =
      (p.sentInClear, p.out.filter isSignal ++ [event].filter isSignal) := by
  rw [signals, MediaPool.emit, List.filter_append]

theorem silent_emit {event : PoolEvent} (other : isSignal event = false) :
    Silent p (p.emit event) := by
  refine ⟨?_⟩
  rw [signals_emit, List.filter_singleton, other]
  exact congrArg (Prod.mk p.sentInClear) (List.append_nil _)

theorem silent_applyConstraintsNow (memberId : String) (kind : MediaStreamKind) :
    Silent p (p.applyConstraintsNow memberId kind) := by
  unfold MediaPool.applyConstraintsNow
  split
  · split
    · exact ⟨rfl⟩
    · exact .refl p
    · exact .refl p
  · exact .refl p

theorem silent_announceStream (memberId : String) (kind : MediaStreamKind) :
    Silent p (p.announceStream memberId kind) := by
  unfold MediaPool.announceStream
  extract_lets q
  have added : Silent p q := silent_emit rfl
  split_ifs
  · exact added.trans (silent_applyConstraintsNow memberId kind)
  · exact added

theorem silent_addTrack (memberId : String) (kind : MediaStreamKind) (pooled : PooledTrack) :
    Silent p (p.addTrack memberId kind pooled) := by
  have placed : Silent p { p with tracks := p.tracks.insert (memberId, kind) pooled } := ⟨rfl⟩
  unfold MediaPool.addTrack
  cases p.tracks.lookup (memberId, kind) with
  | some previous =>
      dsimp only
      split_ifs
      · exact placed
      · exact (placed.trans (silent_emit rfl)).trans (silent_announceStream memberId kind)
  | none => exact placed.trans (silent_announceStream memberId kind)

theorem silent_removeTrack (memberId : String) (kind : MediaStreamKind) (key : String) :
    Silent p (p.removeTrack memberId kind key) := by
  unfold MediaPool.removeTrack
  split_ifs
  · exact Silent.trans (q := { p with tracks := p.tracks.erase (memberId, kind) }) ⟨rfl⟩
      (silent_emit rfl)
  · exact .refl p

theorem silent_flushTracks (memberId identity : String) :
    Silent p (p.flushTracks memberId identity) := by
  unfold MediaPool.flushTracks
  extract_lets pending
  refine Silent.trans (q := { p with pendingTracks := p.pendingTracks.erase identity }) ⟨rfl⟩
    (Silent.foldl (fun p (buffered : MediaStreamKind × PooledTrack) => ?_) _ _)
  exact silent_addTrack _ _ _

theorem silent_flushKeys (memberId identity : String) :
    Silent p (p.flushKeys memberId identity) := by
  unfold MediaPool.flushKeys
  extract_lets pending
  exact Silent.trans (q := { p with pendingKeys := p.pendingKeys.erase identity }) ⟨rfl⟩
    (Silent.foldl (fun _ (_ : UInt8) => silent_emit rfl) _ _)

theorem silent_startConnect (key : String) (attempt : ℕ) :
    Silent p (p.startConnect key attempt) := by
  unfold MediaPool.startConnect
  split
  · exact .refl p
  · split_ifs
    · exact .refl p
    · exact ⟨rfl⟩

theorem silent_openPeer (key : String) (backend : MediaTransport) (members : List String) :
    Silent p (p.openPeer key backend members) := by
  unfold MediaPool.openPeer
  split_ifs
  · exact .refl p
  · have set (entry : ManagedConnection) : Silent p (p.setEntry key entry) := ⟨rfl⟩
    exact (set _).trans (silent_startConnect key 0)

theorem silent_reconcilePool : Silent p p.reconcilePool :=
  Silent.trans (q := p.regroup) ⟨rfl⟩
    (Silent.foldl (fun _ (e : Sigma fun _ : String => MediaTransport × List String) =>
      silent_openPeer e.1 e.2.1 e.2.2) _ _)

theorem silent_forgetDeparted (snapshot : List JoinedMembership) :
    Silent p (p.forgetDeparted snapshot) := by
  unfold MediaPool.forgetDeparted
  extract_lets current departed
  exact Silent.foldl (fun p memberId => (⟨rfl⟩ : Silent p (p.forgetMember memberId))) _ p

/-- What is signalled where a member arrives. -/
def arrivalSignals (p : MediaPool) (member : JoinedMembership) : List PoolEvent :=
  if member.memberId ∉ p.knownMembers ∧
      (remoteIdentity p.transports member).any p.sentInClear.contains then
    [.sentInClear member.memberId]
  else []

theorem signals_mapMember (p : MediaPool) (member : JoinedMembership) :
    signals (p.mapMember member) =
      (p.sentInClear, p.out.filter isSignal ++
        if (remoteIdentity p.transports member).any p.sentInClear.contains then
          [.sentInClear member.memberId]
        else []) := by
  unfold MediaPool.mapMember
  cases is_identity : remoteIdentity p.transports member with
  | none => simp [signals]
  | some identity =>
      dsimp only
      have flushed : Silent p
          ((p.mapIdentity member.memberId identity).flushTracks member.memberId identity) :=
        Silent.trans (q := p.mapIdentity member.memberId identity) ⟨rfl⟩ (silent_flushTracks _ _)
      rw [(silent_flushKeys _ _).signals, flushed.clear, Option.any_some]
      split_ifs
      · rw [signals_emit, flushed.clear, flushed.out]
        rfl
      · rw [flushed.signals, List.append_nil]
        rfl

theorem signals_joinMember (p : MediaPool) (member : JoinedMembership) :
    signals (p.joinMember member) =
      (p.sentInClear, p.out.filter isSignal ++ arrivalSignals p member) := by
  unfold arrivalSignals
  by_cases known : member.memberId ∈ p.knownMembers
  · rw [joinMember_known known, if_neg fun h => h.1 known, List.append_nil]
    rfl
  · rw [MediaPool.joinMember, if_neg fun there => known (List.contains_iff_mem.mp there),
      signals_mapMember]
    simp [known]

/-- Where members arrive, it is signalled of those that are new whether their identity sent in
the clear, and nothing else. -/
theorem signals_joinAll (snapshot : List JoinedMembership) (p : MediaPool) :
    (snapshot.foldl MediaPool.joinMember p).sentInClear = p.sentInClear ∧
      ∃ later, (snapshot.foldl MediaPool.joinMember p).out.filter isSignal =
          p.out.filter isSignal ++ later ∧
        (∀ event ∈ later, ∃ memberId, event = .sentInClear memberId) ∧
        ∀ memberId, .sentInClear memberId ∈ later ↔ memberId ∉ p.knownMembers ∧
          ((arrivalIdentity p.transports snapshot memberId).any p.sentInClear.contains) := by
  induction snapshot generalizing p with
  | nil =>
      refine ⟨rfl, [], (List.append_nil _).symm, fun event there => ?_, fun memberId => ?_⟩
      · cases there
      · simp [arrivalIdentity]
  | cons member rest ih =>
      have first := signals_joinMember p member
      obtain ⟨clear, later, out, only, each⟩ := ih (p.joinMember member)
      have clear_ : (p.joinMember member).sentInClear = p.sentInClear := congrArg Prod.fst first
      have out_ : (p.joinMember member).out.filter isSignal =
        p.out.filter isSignal ++ arrivalSignals p member := congrArg Prod.snd first
      refine ⟨clear.trans clear_, arrivalSignals p member ++ later, ?_, fun event there => ?_,
        fun memberId => ?_⟩
      · rw [List.foldl_cons, out, out_, List.append_assoc]
      · obtain there | there := List.mem_append.mp there
        · unfold arrivalSignals at there
          split_ifs at there
          · exact ⟨_, List.mem_singleton.mp there⟩
          · cases there
        · exact only event there
      · rw [List.mem_append, each, transports_joinMember, clear_, mem_known_joinMember, not_or,
          arrivalIdentity, arrivalIdentity, List.find?_cons]
        unfold arrivalSignals
        by_cases same : member.memberId = memberId
        · subst same
          by_cases known : member.memberId ∈ p.knownMembers
          · simp [known]
          · rw [beq_self_eq_true]
            simp [known, Option.bind_some]
        · rw [beq_false_of_ne same]
          split_ifs <;> simp [Ne.symm same]

end

end MatrixRtc.PoolSignals

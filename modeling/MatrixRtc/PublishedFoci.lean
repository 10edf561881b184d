import MatrixRtc.EncryptionManagers
import MatrixRtc.LiveKitTargets
import MatrixRtc.OwnFocusMoves
import MatrixRtc.PoolTasks

/-!
# Where our media is, and what we publish of it

Our media is on the focus of our join, or on the one it last moved to, and we publish a
transport for it. A pool leaves its own key as it is, or moves to the focus of a transport
that it publishes then, over a backend that keeps the identity we have.
-/
namespace MatrixRtc.PublishedFoci
open MemberEvents MediaTransports Tables MediaPools PoolFrames PoolTasks StepRuns LiveKitTargets

/-- The connections to peers go over the backends there are. -/
def Backed (p : MediaPool) : Prop :=
  ∀ key entry backend, p.pool.lookup key = some entry → entry.backend = some backend →
    backend ∈ p.transports

/-- Our media stays where it is. -/
structure Stays (p q : MediaPool) : Prop where
  transports : q.transports = p.transports
  ownKey : q.ownConnectionKey = p.ownConnectionKey
  moves : q.out.filter isMove = p.out.filter isMove
  backed : Backed p → Backed q

/-- Our media has moved to the focus of a transport that somebody publishes. -/
structure Moved (p q : MediaPool) (target : String) (transport : RtcTransport) : Prop where
  transports : q.transports = p.transports
  ownKey : q.ownConnectionKey = some target
  moves : q.out.filter isMove = p.out.filter isMove ++ [.ownFocusMoved target transport]
  backed : Backed p → Backed q
  shares : Backed p → ∃ own, p.ownConnectionKey = some own ∧
    ∃ backend ∈ p.transports, backend.sharesIdentity own target = true
  published : ∃ publisher theirs, transport = asPublishedBy publisher theirs ∧
    ∃ backend ∈ p.transports, backend.connectionKey theirs publisher = some target

/-- What a call does about where our media is. -/
def Turns (p q : MediaPool) : Prop := Stays p q ∨ ∃ target transport, Moved p q target transport

section
variable {p q r : MediaPool}

namespace Stays

theorem refl (p : MediaPool) : Stays p p := ⟨rfl, rfl, rfl, id⟩

theorem trans (first : Stays p q) (second : Stays q r) : Stays p r where
  transports := second.transports.trans first.transports
  ownKey := second.ownKey.trans first.ownKey
  moves := second.moves.trans first.moves
  backed := second.backed ∘ first.backed

theorem foldl {α : Type} {f : MediaPool → α → MediaPool} (each : ∀ p x, Stays p (f p x))
    (xs : List α) (p : MediaPool) : Stays p (xs.foldl f p) := by
  induction xs generalizing p with
  | nil => exact .refl p
  | cons x rest ih => exact (each p x).trans (ih (f p x))

theorem of_entries (transports : q.transports = p.transports)
    (ownKey : q.ownConnectionKey = p.ownConnectionKey) (out : q.out = p.out)
    (entries : ∀ key entry, q.pool.lookup key = some entry →
      ∃ before, p.pool.lookup key = some before ∧
        (entry.backend = before.backend ∨ entry.backend = none)) : Stays p q where
  transports := transports
  ownKey := ownKey
  moves := congrArg _ out
  backed backed key entry backend found is_backend := by
    obtain ⟨before, was, same | none_⟩ := entries key entry found
    · exact transports ▸ backed key before backend was (same.symm.trans is_backend)
    · cases none_.symm.trans is_backend

theorem of_same (transports : q.transports = p.transports)
    (ownKey : q.ownConnectionKey = p.ownConnectionKey) (out : q.out = p.out)
    (pool : q.pool = p.pool) : Stays p q :=
  .of_entries transports ownKey out fun _ entry found => ⟨entry, pool ▸ found, .inl rfl⟩

theorem turns (h : Stays p q) : Turns p q := .inl h

end Stays

theorem moves_of_news (p : MediaPool) :
    (p.out.filter isNews).filter isMove = p.out.filter isMove := by
  rw [List.filter_filter]
  refine List.filter_congr fun event _ => ?_
  cases event <;> rfl

theorem Beside.stays (h : Beside p q) : Stays p q where
  transports := congrArg Frame.transports h.frame
  ownKey := h.ownKey
  moves := by
    rw [← moves_of_news q, ← moves_of_news p]
    exact congrArg (List.filter isMove) (congrArg Frame.news h.frame)
  backed backed := by
    have transports : q.transports = p.transports := congrArg Frame.transports h.frame
    unfold Backed
    rw [h.pool, transports]
    exact backed

namespace Turns

theorem after (first : Stays p q) (turns : Turns q r) : Turns p r := by
  obtain stays | ⟨target, transport, moved⟩ := turns
  · exact .inl (first.trans stays)
  · refine .inr ⟨target, transport, ?_⟩
    exact
      { transports := moved.transports.trans first.transports
        ownKey := moved.ownKey
        moves := by rw [moved.moves, first.moves]
        backed := moved.backed ∘ first.backed
        shares := fun backed => by
          rw [← first.ownKey, ← first.transports]
          exact moved.shares (first.backed backed)
        published := first.transports ▸ moved.published }

theorem before (turns : Turns p q) (second : Stays q r) : Turns p r := by
  obtain stays | ⟨target, transport, moved⟩ := turns
  · exact .inl (stays.trans second)
  · refine .inr ⟨target, transport, ?_⟩
    exact
      { moved with
        transports := second.transports.trans moved.transports
        ownKey := second.ownKey.trans moved.ownKey
        moves := by rw [second.moves, moved.moves]
        backed := second.backed ∘ moved.backed }

end Turns

theorem stays_spawn (task : Spawned) : Stays p (p.spawn task) := .of_same rfl rfl rfl rfl

theorem stays_setEntry {key : String} {entry after : ManagedConnection}
    (found : p.pool.lookup key = some entry)
    (backend : after.backend = entry.backend ∨ after.backend = none) :
    Stays p (p.setEntry key after) :=
  .of_entries rfl rfl rfl fun other found' there => by
    obtain ⟨rfl, rfl⟩ | ⟨-, before⟩ := of_lookup_insert there
    · exact ⟨entry, found, backend⟩
    · exact ⟨found', before, .inl rfl⟩

theorem stays_placeEntry {key : String} {entry : ManagedConnection}
    (backend : ∀ backend ∈ entry.backend, backend ∈ p.transports) :
    Stays p (p.setEntry key entry) where
  transports := rfl
  ownKey := rfl
  moves := rfl
  backed backed other found chosen there is_backend := by
    obtain ⟨rfl, rfl⟩ | ⟨-, before⟩ := of_lookup_insert there
    · exact backend chosen is_backend
    · exact backed other found chosen before is_backend

theorem stays_removeEntry (key : String) : Stays p (p.removeEntry key) :=
  .of_entries rfl rfl rfl fun _ entry there => ⟨entry, (of_lookup_erase there).2, .inl rfl⟩

theorem stays_startConnect (key : String) (attempt : ℕ) : Stays p (p.startConnect key attempt) := by
  unfold MediaPool.startConnect
  split
  · exact .refl p
  · next entry found =>
      split_ifs
      · exact .refl p
      · have set : Stays p (p.setEntry key { entry with state := .connecting attempt }) :=
          stays_setEntry found (.inl rfl)
        exact set.trans (stays_spawn _)

theorem stays_openPeer (key : String) {backend : MediaTransport} (members : List String)
    (there : backend ∈ p.transports) : Stays p (p.openPeer key backend members) := by
  unfold MediaPool.openPeer
  split_ifs
  · exact .refl p
  · refine (stays_placeEntry fun chosen is_backend => ?_).trans (stays_startConnect key 0)
    cases is_backend
    exact there

theorem stays_regroup : Stays p p.regroup :=
  .of_entries rfl rfl rfl fun key entry there => by
    rw [OwnFocus.lookup_regroup, Option.map_eq_some_iff] at there
    obtain ⟨before, was, rfl⟩ := there
    exact ⟨before, was, .inl rfl⟩

/-- A focus that the snapshot asks for is reached over a backend there is. -/
theorem backend_of_desired {key : String} {group : MediaTransport × List String}
    (asked : p.desired.lookup key = some group) : group.1 ∈ p.transports := by
  unfold MediaPool.desired at asked
  have start : ∀ key group, (∅ : Table String (MediaTransport × List String)).lookup key =
      some group → group.1 ∈ p.transports := fun _ _ none_ => nomatch none_
  generalize (∅ : Table String (MediaTransport × List String)) = groups at start asked
  generalize p.membersSnapshot = members at asked
  induction members generalizing groups with
  | nil => exact start key group asked
  | cons member rest ih =>
      refine ih _ (fun key group there => ?_) asked
      dsimp only at there
      split_ifs at there
      · exact start key group there
      · split at there
        · next backend chosen selected =>
            have among : backend ∈ p.transports := by
              obtain ⟨found, there, same⟩ := List.exists_of_findSome?_eq_some selected
              obtain ⟨_, _, named⟩ := Option.map_eq_some_iff.mp same
              cases named
              exact there
            obtain ⟨rfl, rfl⟩ | ⟨-, there⟩ := of_lookup_insert there
            · cases before : groups.lookup key with
              | none => exact among
              | some old => exact start key old before
            · exact start key group there
        · exact start key group there

theorem stays_reconcilePool : Stays p p.reconcilePool := by
  unfold MediaPool.reconcilePool
  extract_lets missing
  have known : ∀ e ∈ missing, e.2.1 ∈ p.regroup.transports := fun e there =>
    backend_of_desired (lookup_eq_some_iff.mpr (List.mem_of_mem_filter there))
  refine stays_regroup.trans ?_
  generalize p.regroup = q at known
  clear_value missing
  induction missing generalizing q with
  | nil => exact .refl q
  | cons e rest ih =>
      have opened := stays_openPeer e.1 e.2.2 (known e List.mem_cons_self)
      refine opened.trans (ih _ fun e there => ?_)
      rw [opened.transports]
      exact known e (List.mem_cons_of_mem _ there)

theorem stays_retryConnect (key : String) (attempt : ℕ) : Stays p (p.retryConnect key attempt) := by
  unfold MediaPool.retryConnect
  split
  · exact .refl p
  · split_ifs
    · exact .refl p
    · exact (stays_removeEntry key).trans (Beside.stays (beside_clearDegraded key))
    · exact stays_startConnect key attempt

theorem stays_closeIfIdle (key : String) (idleGeneration : ℕ) :
    Stays p (p.closeIfIdle key idleGeneration) := by
  unfold MediaPool.closeIfIdle
  split_ifs
  · extract_lets dropped closed
    have gone : Stays p dropped :=
      (Beside.stays (calm_dropped key).beside).trans (stays_removeEntry key)
    refine (gone.trans (?_ : Stays dropped closed)).trans (Beside.stays (beside_clearDegraded key))
    unfold closed
    split
    · exact Beside.stays (calm_closeEntry _).beside
    · exact .refl dropped
  · exact .refl p

theorem stays_installed {key : String} {entry : ManagedConnection} (connection : ℕ)
    (found : p.pool.lookup key = some entry) : Stays p (p.installed key entry connection) := by
  unfold MediaPool.installed
  extract_lets generation numbered set
  have toNumbered : Stays p numbered := .of_same rfl rfl rfl rfl
  have toSet : Stays numbered set := stays_setEntry found (.inl rfl)
  exact (toNumbered.trans toSet).trans (stays_spawn _)

theorem stays_startOwnLoss (now : ℕ) : Stays p (p.startOwnLoss now) := by
  unfold MediaPool.startOwnLoss
  split
  · next key own _ _ =>
      split_ifs
      · exact .refl p
      · extract_lets epoch begun budgeted fallible
        have toBegun : Stays p begun := .of_same rfl rfl rfl rfl
        have toFallible : Stays budgeted fallible := by
          unfold fallible
          split_ifs
          · exact stays_spawn _
          · exact .refl budgeted
        exact ((toBegun.trans (stays_spawn _)).trans toFallible).trans
          (Beside.stays (beside_markDegraded key))
  · exact .refl p

theorem stays_endOwnLoss : Stays p p.endOwnLoss := by
  unfold MediaPool.endOwnLoss
  split
  · exact .refl p
  · extract_lets q
    split_ifs <;> exact .of_same rfl rfl rfl rfl

theorem stays_spawnOwnAttempt (attempt : ℕ) : Stays p (p.spawnOwnAttempt attempt) := by
  unfold MediaPool.spawnOwnAttempt
  split
  · next key own _ _ =>
      extract_lets asked entered
      have toAsked : Stays p asked := .of_same rfl rfl rfl rfl
      refine (toAsked.trans (?_ : Stays asked entered)).trans (stays_spawn _)
      unfold entered
      split
      · next entry found => exact stays_setEntry found (.inl rfl)
      · exact .refl asked
  · exact .refl p

theorem stays_giveUpOwn (reason : OwnConnectionLoss) (message : String) :
    Stays p (p.giveUpOwn reason message) := by
  unfold MediaPool.giveUpOwn
  split
  · exact .refl p
  · next key _ =>
      extract_lets unaimed gone lost
      have toGone : Stays p gone := by
        have toUnaimed : Stays p unaimed := .of_same rfl rfl rfl rfl
        exact (toUnaimed.trans (Beside.stays
          (calm_dropped key).beside)).trans
            (stays_removeEntry key)
      have toLost : Stays gone lost :=
        Stays.trans (q := { gone with own := none, ownLost := true })
          (.of_same rfl rfl rfl rfl) (Beside.stays (beside_clearDegraded key))
      have told : Stays lost ((lost.emit (.connectionState key .unreachable)).emit
          (.ownConnectionLost reason message)) :=
        { transports := rfl
          ownKey := rfl
          moves := by simp [MediaPool.emit, List.filter_append, isMove]
          backed := id }
      exact (toGone.trans toLost).trans told

theorem stays_giveUpOwnBudget : Stays p p.giveUpOwnBudget := by
  unfold MediaPool.giveUpOwnBudget
  split
  · exact .refl p
  · exact stays_giveUpOwn _ _

theorem stays_ownBackoff (attempt now : ℕ) : Stays p (p.ownBackoff attempt now) := by
  unfold MediaPool.ownBackoff
  split
  · exact .refl p
  · next key _ =>
      extract_lets entered left delay
      refine (?_ : Stays p entered).trans (stays_spawn _)
      unfold entered
      split
      · next entry found => exact stays_setEntry found (.inl rfl)
      · exact .refl p

/-- The focus to fall back to is a peer's, over a backend that keeps our identity. -/
theorem fallbackChoice_shares {now : ℕ} {ownKey target : String}
    (chosen : p.fallbackChoice now = some (ownKey, target)) (backed : Backed p) :
    p.ownConnectionKey = some ownKey ∧
      ∃ backend ∈ p.transports, backend.sharesIdentity ownKey target = true := by
  refine ⟨(OwnFocus.fallbackChoice_spec chosen).1, ?_⟩
  simp only [MediaPool.fallbackChoice, Option.bind_eq_bind, Option.bind_eq_some_iff,
    Option.guard_eq_some'] at chosen
  obtain ⟨-, -, own, -, since, -, -, -, -, -, target', candidate, same⟩ := chosen
  cases same
  obtain ⟨e, best, rfl⟩ := Option.map_eq_some_iff.mp candidate
  obtain there | none_ := OwnFocus.mem_of_foldl_choice (fun found e => by
    cases found with
    | none => exact .inl rfl
    | some best =>
        dsimp only
        split_ifs
        · exact .inr rfl
        · exact .inl rfl) best
  · obtain ⟨entered, kept⟩ := List.mem_filter.mp there
    obtain ⟨backend, is_backend, shares⟩ :=
      (Option.any_eq_true _ _).mp (Bool.and_eq_true_iff.mp kept).2
    exact ⟨backend, backed e.1 e.2 backend (lookup_eq_some_iff.mpr entered) is_backend, shares⟩
  · cases none_

theorem published_of_transportForKey {target : String} {transport : RtcTransport}
    (found : p.transportForKey target = some transport) :
    ∃ publisher theirs, transport = asPublishedBy publisher theirs ∧
      ∃ backend ∈ p.transports, backend.connectionKey theirs publisher = some target := by
  obtain ⟨member, -, published⟩ := List.exists_of_findSome?_eq_some found
  obtain ⟨theirs, first, rfl⟩ := Option.map_eq_some_iff.mp published
  have serves := List.find?_some first
  obtain ⟨backend, there, same⟩ := List.any_eq_true.mp serves
  exact ⟨member.sender, theirs, rfl, backend, there, beq_iff_eq.mp same⟩

theorem moved_movedTo {ownKey target : String} (own : OwnRecovery) (transport : RtcTransport)
    (shares : Backed p → ∃ own, p.ownConnectionKey = some own ∧
      ∃ backend ∈ p.transports, backend.sharesIdentity own target = true)
    (published : ∃ publisher theirs, transport = asPublishedBy publisher theirs ∧
      ∃ backend ∈ p.transports, backend.connectionKey theirs publisher = some target) :
    Moved p (p.movedTo ownKey target own transport) target transport := by
  unfold MediaPool.movedTo
  extract_lets up gone taken renamed told opened
  have toGone : Stays p gone := by
    have toUp : Stays p up := .of_same rfl rfl rfl rfl
    refine (toUp.trans (stays_removeEntry ownKey)).trans (Beside.stays ?_)
    exact (calm_dropped ownKey).beside
  have toTaken : Stays gone taken := by
    unfold taken
    split
    · next entry found => exact stays_setEntry found (.inr rfl)
    · exact .refl gone
  have toRenamed : Stays { taken with ownConnectionKey := some target } renamed := stays_endOwnLoss
  have toOpened : Stays told opened := stays_reconcilePool
  have toEnd : Stays opened (if (opened.pool.lookup ownKey).isNone then opened.clearDegraded ownKey
      else opened) := by
    split_ifs
    · exact Beside.stays (beside_clearDegraded ownKey)
    · exact .refl opened
  have first := toGone.trans toTaken
  have last := toOpened.trans toEnd
  exact
    { transports := last.transports.trans (toRenamed.transports.trans first.transports)
      ownKey := last.ownKey.trans toRenamed.ownKey
      moves := by
        have same : renamed.out.filter isMove = taken.out.filter isMove := toRenamed.moves
        have said : told.out.filter isMove =
            taken.out.filter isMove ++ [.ownFocusMoved target transport] := by
          rw [← same]
          simp only [told, MediaPool.emit, List.append_assoc, List.filter_append]
          rfl
        rw [last.moves, said, first.moves]
      backed := fun backed => last.backed (toRenamed.backed (first.backed backed))
      shares := shares
      published := published }

theorem turns_tryFallback (now : ℕ) (takeOver : Except TransportError Unit) :
    Turns p (p.tryFallback now takeOver) := by
  unfold MediaPool.tryFallback
  split
  · exact Stays.turns (.refl p)
  · next ownKey target chosen =>
      split_ifs
      · unfold MediaPool.fallBack
        split
        · next own transport entry _ serves _ =>
            split_ifs
            · cases takeOver with
              | error error => exact Stays.turns (.of_same rfl rfl rfl rfl)
              | ok _ =>
                  exact .inr ⟨target, transport, moved_movedTo own transport
                    (fun backed => ⟨ownKey, fallbackChoice_shares chosen backed⟩)
                    (published_of_transportForKey serves)⟩
            · exact Stays.turns (.refl p)
        · exact Stays.turns (.refl p)
      · exact Stays.turns (.of_same rfl rfl rfl rfl)

theorem turns_peerUp (key : String) (now : ℕ) (takeOver : Except TransportError Unit) :
    Turns p (p.peerUp key now takeOver) := by
  unfold MediaPool.peerUp
  split_ifs
  · exact Stays.turns (.refl p)
  · exact turns_tryFallback now takeOver

theorem turns_connectFinished (key : String) (attempt : ℕ) (result : Except TransportError ℕ)
    (now : ℕ) (takeOver : Except TransportError Unit) :
    Turns p (p.connectFinished key attempt result now takeOver) := by
  unfold MediaPool.connectFinished
  split
  · exact (Beside.stays (calm_closeStray result).beside).turns
  · next entry found =>
      split_ifs
      · exact (Beside.stays (calm_closeStray result).beside).turns
      · exact ((stays_removeEntry key).trans (Beside.stays
          ((beside_clearDegraded key).trans (calm_closeStray result).beside))).turns
      · cases result with
        | ok connection =>
            exact .after ((stays_installed connection found).trans
              (Beside.stays (beside_clearDegraded key))) (turns_peerUp key now takeOver)
        | error _ =>
            dsimp only
            have degraded := beside_markDegraded (p := p) key
            have there : (p.markDegraded key).pool.lookup key = some entry := degraded.pool ▸ found
            have set : Stays (p.markDegraded key) ((p.markDegraded key).setEntry key
                { entry with state := .backoff (attempt + 1) }) :=
              stays_setEntry there (.inl rfl)
            exact (((Beside.stays degraded).trans set).trans (stays_spawn _)).turns

theorem stays_connectionDown (key : String) (generation : ℕ) (message : String) (now : ℕ) :
    Stays p (p.connectionDown key generation message now) := by
  unfold MediaPool.connectionDown
  split
  · exact .refl p
  · next entry found =>
      have dropped : Beside p ((p.dropUnmappedOn key).dropPendingFrom key) :=
        (calm_dropped key).beside
      have retired := dropped.trans ((calm_retireTracks key).beside.trans (beside_markDegraded key))
      split_ifs
      · exact .refl p
      · exact (Beside.stays dropped).trans (stays_giveUpOwn _ _)
      · exact (Beside.stays retired).trans
          ((stays_startOwnLoss now).trans (stays_spawnOwnAttempt 0))
      · exact (Beside.stays retired).trans
          ((stays_removeEntry key).trans (Beside.stays (beside_clearDegraded key)))
      · have there := found
        rw [← retired.pool] at there
        have set : Stays _ (MediaPool.setEntry _ key { entry with state := .backoff 0 }) :=
          stays_setEntry there (.inl rfl)
        exact (Beside.stays retired).trans (set.trans (stays_spawn _))

theorem stays_reconnecting (key : String) (now : ℕ) : Stays p (p.reconnecting key now) := by
  unfold MediaPool.reconnecting
  extract_lets degraded
  have toDegraded : Stays p degraded := Beside.stays (beside_markDegraded key)
  split_ifs
  · exact toDegraded.trans (stays_startOwnLoss now)
  · exact toDegraded

theorem turns_reconnected (key : String) (now : ℕ) (takeOver : Except TransportError Unit) :
    Turns p (p.reconnected key now takeOver) := by
  unfold MediaPool.reconnected
  extract_lets ended
  have toEnded : Stays p ended := by
    unfold ended
    split_ifs
    · exact stays_endOwnLoss
    · exact .refl p
  refine .before (.after (toEnded.trans (Beside.stays (beside_clearDegraded key)))
    (turns_peerUp key now takeOver)) (Beside.stays (calm_reapplyConnectionConstraints key).beside)

theorem turns_handleConnectionEvent (key : String) (event : ConnectionEvent) (now : ℕ)
    (takeOver : Except TransportError Unit) :
    Turns p (p.handleConnectionEvent key event now takeOver) := by
  cases event with
  | reconnecting => exact (stays_reconnecting key now).turns
  | reconnected => exact turns_reconnected key now takeOver
  | closed message => exact (stays_connectionDown key _ message now).turns
  | _ => exact (Beside.stays (calm_handleConnectionEvent rfl key now takeOver).beside).turns

theorem stays_ownConnectFinished (attempt : ℕ) (result : Except TransportError Unit) (now : ℕ) :
    Stays p (p.ownConnectFinished attempt result now) := by
  unfold MediaPool.ownConnectFinished
  split
  · next key own _ _ =>
      split
      · cases result with
        | ok _ =>
            dsimp only
            split_ifs
            · exact stays_spawn _
            · exact .refl p
        | error _ => exact .refl p
      · next entry found =>
          have there : p.pool.lookup key = some entry := (Option.filter_eq_some_iff.mp found).1
          cases result with
          | ok _ =>
              dsimp only
              have up : Stays p { p with own := some { own with everUp := true } } :=
                .of_same rfl rfl rfl rfl
              have toInstalled := up.trans (stays_installed own.connection there)
              exact (toInstalled.trans stays_endOwnLoss).trans (Beside.stays
                ((beside_clearDegraded key).trans (calm_reapplyConnectionConstraints key).beside))
          | error error =>
              dsimp only
              have refetching : Stays p { p with own := some { own with
                  tokenRefetched := true, refetchNext := true } } := .of_same rfl rfl rfl rfl
              cases error with
              | tokenRejected message =>
                  dsimp only
                  split_ifs
                  · exact stays_giveUpOwn _ _
                  · exact stays_giveUpOwn _ _
                  · exact refetching.trans (stays_ownBackoff _ _)
              | refused message =>
                  dsimp only
                  split_ifs
                  · exact stays_giveUpOwn _ _
                  · exact stays_giveUpOwn _ _
              | unsupported _ | connect _ | closed _ =>
                  dsimp only
                  split_ifs
                  · exact stays_giveUpOwnBudget
                  · exact stays_ownBackoff _ _
  · exact .refl p

theorem turns_ownRetry (attempt now : ℕ) (takeOver : Except TransportError Unit) :
    Turns p (p.ownRetry attempt now takeOver) := by
  unfold MediaPool.ownRetry
  extract_lets tried
  refine .before (turns_tryFallback now takeOver) ?_
  split_ifs
  · exact stays_spawnOwnAttempt attempt
  · exact .refl _

theorem stays_ownBudget (epoch : ℕ) : Stays p (p.ownBudget epoch) := by
  unfold MediaPool.ownBudget
  split_ifs
  · extract_lets spent tried
    have toSpent : Stays p spent := .of_same rfl rfl rfl rfl
    refine (toSpent.trans (?_ : Stays spent tried)).trans (stays_spawn _)
    unfold tried
    split
    · exact stays_spawnOwnAttempt _
    · exact .refl spent
  · exact .refl p

theorem turns_handle (message : Message) (now : ℕ) (takeOver : Except TransportError Unit) :
    Turns p (p.handle message now takeOver) := by
  unfold MediaPool.handle
  cases message with
  | connection key generation event =>
      dsimp only
      split_ifs
      · exact turns_handleConnectionEvent key event now takeOver
      · exact Stays.turns (.refl p)
  | connectionEnded key generation => exact (stays_connectionDown key generation _ now).turns
  | connectFinished key attempt result => exact turns_connectFinished key attempt result now takeOver
  | retryConnect key attempt => exact (stays_retryConnect key attempt).turns
  | closeIfIdle key idleGeneration => exact (stays_closeIfIdle key idleGeneration).turns
  | applyConstraints memberId kind generation =>
      dsimp only
      split_ifs
      · exact (Beside.stays (calm_applyConstraintsNow memberId kind).beside).turns
      · exact Stays.turns (.refl p)
  | ownConnectFinished attempt result => exact (stays_ownConnectFinished attempt result now).turns
  | ownRetry attempt => exact turns_ownRetry attempt now takeOver
  | ownBudget epoch => exact (stays_ownBudget epoch).turns
  | ownFinalAttemptExpired epoch =>
      dsimp only
      split_ifs
      · exact stays_giveUpOwnBudget.turns
      · exact Stays.turns (.refl p)
  | ownFallback epoch =>
      dsimp only
      split_ifs
      · exact turns_tryFallback now takeOver
      · exact Stays.turns (.refl p)

theorem stays_applySnapshot (snapshot : List JoinedMembership) :
    Stays p (p.applySnapshot snapshot) := by
  unfold MediaPool.applySnapshot
  have named := (Beside.stays (calm_joined (p := p) snapshot).beside).trans (r :=
    { snapshot.foldl MediaPool.joinMember (p.forgetDeparted snapshot) with
      membersSnapshot := snapshot }) (.of_same rfl rfl rfl rfl)
  exact named.trans stays_reconcilePool

theorem stays_adoptOwnConnection (key : String) (connection : ℕ) :
    Stays p (p.adoptOwnConnection key connection) := by
  unfold MediaPool.adoptOwnConnection
  extract_lets generation owned
  have toOwned : Stays p owned := .of_same rfl rfl rfl rfl
  exact (toOwned.trans (stays_placeEntry (by simp))).trans (stays_spawn _)

theorem stays_connectOwn (key : String) (connection now : ℕ) :
    Stays p (p.connectOwn key connection now) := by
  unfold MediaPool.connectOwn
  extract_lets owned entered
  have toOwned : Stays p owned := .of_same rfl rfl rfl rfl
  have toEntered : Stays owned entered := stays_placeEntry (by simp)
  exact (toOwned.trans toEntered).trans ((stays_startOwnLoss now).trans (stays_spawnOwnAttempt 0))

theorem stays_close : Stays p p.close := by
  unfold MediaPool.close
  extract_lets emptied
  have toEmptied : Stays p emptied := .of_entries rfl rfl rfl fun _ _ there => nomatch there
  exact toEmptied.trans (Stays.foldl (fun _ (e : Sigma fun _ : String => ManagedConnection) =>
    Beside.stays (calm_closeEntry e.2).beside) _ _)

/-- A call leaves our media where it is, or moves it. -/
theorem turns_perform (input : Input) : Turns p (p.perform input) := by
  unfold MediaPool.perform
  cases input.call with
  | applySnapshot snapshot => exact (stays_applySnapshot snapshot).turns
  | adoptOwnConnection key connection => exact (stays_adoptOwnConnection key connection).turns
  | connectOwn key connection => exact (stays_connectOwn key connection input.now).turns
  | keyImported identity keyIndex =>
      exact (Beside.stays (calm_keyImported identity keyIndex).beside).turns
  | setConstraints memberId kind constraints =>
      exact (Beside.stays (calm_setConstraints memberId kind constraints).beside).turns
  | setSignallingReachable reachable =>
      have told : Stays p { p with signallingReachable := reachable } := .of_same rfl rfl rfl rfl
      dsimp only [MediaPool.setSignallingReachable]
      split_ifs
      · exact .after told (turns_tryFallback input.now input.takeOver)
      · exact told.turns
  | handle message => exact turns_handle message input.now input.takeOver
  | close => exact stays_close.turns

end

/-- The pool that media is attached with, on the transport of the join. -/
def attachedConfig (format : TargetFormat) (msc4195Identity : String → String → String)
    (us : OwnMemberClaims) (join : LiveKitTransport) (ownReconnectBudget : ℕ) (sfuFallback : Bool) :
    PoolConfig :=
  { transports := [liveKitBackend format msc4195Identity]
    ownMemberId := us.memberId
    ownConnectionKey := connectionKey format (.liveKit join) us.userId
    ownReconnectBudget := ownReconnectBudget
    sfuFallback := sfuFallback }

/-- The focus our media moved to, and the transport that is published for it. -/
def moveOf : PoolEvent → Option (String × RtcTransport)
  | .ownFocusMoved key transport => some (key, transport)
  | _ => none

/-- What we publish, newest last, each with its focus: the transport of the join, and one
for each move. -/
def publications (format : TargetFormat) (us : OwnMemberClaims) (join : LiveKitTransport)
    (reported : List PoolEvent) : List (String × RtcTransport) :=
  (format.toString (.forTransport join us.userId), .liveKit join) :: reported.filterMap moveOf

/-- Peers that read `livekit` from our membership find our media on `key`, under the identity
that our handle was prepared with for the join. -/
structure Found (format : TargetFormat) (msc4195Identity : String → String → String)
    (us : OwnMemberClaims) (join : LiveKitTransport) (key : String) (livekit : LiveKitTransport) :
    Prop where
  reads : readTransport (transportToJson (.liveKit livekit)) = some (.liveKit livekit)
  keyed : connectionKey format (.liveKit livekit) us.userId = some key
  undone : format.fromStr key = some (.forTransport livekit us.userId)
  identity : ∀ prepared ∈ connectionKey format (.liveKit join) us.userId,
    identityFor msc4195Identity
        { userId := us.userId
          deviceId := some us.deviceId
          memberId := us.memberId
          transports := [.liveKit livekit] } =
      some (preparedIdentity format msc4195Identity prepared us)

/-- A transport that is ours, on its focus and with the flow of the join. -/
def Ours (format : TargetFormat) (us : OwnMemberClaims) (join : LiveKitTransport)
    (published : String × RtcTransport) : Prop :=
  ∃ livekit, published.2 = .liveKit livekit ∧
    published.1 = format.toString (.forTransport livekit us.userId) ∧
      (LiveKitTarget.forTransport join us.userId).sameFlow (.forTransport livekit us.userId) = true

structure Inv (format : TargetFormat) (msc4195Identity : String → String → String)
    (us : OwnMemberClaims) (join : LiveKitTransport) (s : System) : Prop where
  transports : s.pool.transports = [liveKitBackend format msc4195Identity]
  backed : Backed s.pool
  taken : s.pool.out = []
  ours : ∀ published ∈ publications format us join s.reported, Ours format us join published
  latest : s.pool.ownConnectionKey =
    (publications format us join s.reported).getLast?.map Prod.fst

section
variable {format : TargetFormat} {msc4195Identity : String → String → String}
  {us : OwnMemberClaims} {join livekit : LiveKitTransport} {key : String} {s t : System}

theorem found_of_ours {published : String × RtcTransport} (ours : Ours format us join published) :
    ∃ livekit, published.2 = .liveKit livekit ∧
      Found format msc4195Identity us join published.1 livekit := by
  obtain ⟨livekit, is_livekit, keyed, flow⟩ := ours
  refine ⟨livekit, is_livekit, readTransport_transportToJson livekit, congrArg some keyed.symm,
    ?_, ?_⟩
  · rw [keyed, format.fromStr_toString]
  · intro prepared is_key
    cases is_key
    rw [identityFor_published, preparedIdentity, preparedTarget_toString,
      LiveKitTarget.ownIdentity_of_sameFlow flow]

theorem moveOf_filter (events : List PoolEvent) :
    (events.filter isMove).filterMap moveOf = events.filterMap moveOf := by
  rw [List.filterMap_filter]
  refine List.filterMap_congr fun event _ => ?_
  cases event <;> rfl

/-- The media of ours that has moved is published on the focus it moved to. -/
theorem Inv.ours_moved {q : MediaPool} {target : String} {transport : RtcTransport}
    (inv : Inv format msc4195Identity us join s) (moved : Moved s.pool q target transport) :
    Ours format us join (target, transport) := by
  obtain ⟨publisher, theirs, rfl, backend, there, serves⟩ := moved.published
  rw [inv.transports, List.mem_singleton] at there
  subst there
  cases theirs with
  | unsupported _ => cases serves
  | liveKit livekit =>
      cases serves
      obtain ⟨ours, is_ours⟩ : ∃ ours, asPublishedBy publisher (.liveKit livekit) = .liveKit ours := by
        rw [asPublishedBy]
        split_ifs
        · exact ⟨_, rfl⟩
        · exact ⟨_, rfl⟩
      have same := forTransport_asPublishedBy is_ours us.userId
      refine ⟨ours, is_ours, congrArg format.toString same.symm, ?_⟩
      obtain ⟨own, is_own, backend, there, shares⟩ := moved.shares inv.backed
      rw [inv.transports, List.mem_singleton] at there
      subst there
      rw [inv.latest] at is_own
      obtain ⟨published, last, rfl⟩ := Option.map_eq_some_iff.mp is_own
      obtain ⟨before, -, keyed, flow⟩ := inv.ours published (List.mem_of_getLast? last)
      rw [keyed, sharesIdentity_toString] at shares
      rw [same]
      exact LiveKitTarget.sameFlow_trans flow shares

theorem publications_called (pool : MediaPool) (rest : List Flight) :
    publications format us join (s.called pool rest).reported =
      publications format us join s.reported ++ (pool.out.filter isMove).filterMap moveOf := by
  rw [moveOf_filter]
  simp [publications, System.called, MediaPool.take]

theorem Inv.called {q : MediaPool} (inv : Inv format msc4195Identity us join s)
    (turns : Turns s.pool q) (rest : List Flight) :
    Inv format msc4195Identity us join (s.called q rest) := by
  obtain stays | ⟨target, transport, moved⟩ := turns
  · have same : publications format us join (s.called q rest).reported =
        publications format us join s.reported := by
      rw [publications_called, stays.moves, inv.taken]
      exact List.append_nil _
    exact
      { transports := stays.transports.trans inv.transports
        backed := stays.backed inv.backed
        taken := rfl
        ours := same ▸ inv.ours
        latest := (stays.ownKey.trans inv.latest).trans (by rw [same]) }
  · have next : publications format us join (s.called q rest).reported =
        publications format us join s.reported ++ [(target, transport)] := by
      rw [publications_called, moved.moves, inv.taken]
      rfl
    exact
      { transports := moved.transports.trans inv.transports
        backed := moved.backed inv.backed
        taken := rfl
        ours := by
          rw [next]
          exact List.forall_mem_append.mpr
            ⟨inv.ours, List.forall_mem_singleton.mpr (inv.ours_moved moved)⟩
        latest := moved.ownKey.trans (by rw [next, List.getLast?_concat, Option.map_some]) }

theorem Inv.of_same (inv : Inv format msc4195Identity us join s) (pool : t.pool = s.pool)
    (reported : t.reported = s.reported) : Inv format msc4195Identity us join t where
  transports := pool ▸ inv.transports
  backed := pool ▸ inv.backed
  taken := pool ▸ inv.taken
  ours := reported ▸ inv.ours
  latest := by
    rw [pool, reported]
    exact inv.latest

theorem Inv.step {a : Action} (inv : Inv format msc4195Identity us join s)
    (h : PoolTasks.step s a = some t) : Inv format msc4195Identity us join t := by
  cases a with
  | tick ms =>
      cases h
      exact inv.of_same rfl rfl
  | owner call takeOver =>
      simp only [PoolTasks.step, Option.ite_none_right_eq_some, Option.some.injEq] at h
      obtain ⟨-, rfl⟩ := h
      exact inv.called (turns_perform _) _
  | answer i result =>
      simp only [PoolTasks.step, Option.bind_eq_bind, Option.bind_eq_some_iff] at h
      obtain ⟨f, -, -, -, same⟩ := h
      cases same
      exact inv.of_same rfl rfl
  | deliver i takeOver =>
      simp only [PoolTasks.step, Option.bind_eq_bind, Option.bind_eq_some_iff] at h
      obtain ⟨f, -, message, -, same⟩ := h
      cases same
      exact (inv.called (turns_perform _) (s.cutShort message (s.flights.eraseIdx i))).of_same rfl rfl
  | event i event takeOver =>
      simp only [PoolTasks.step, Option.bind_eq_bind, Option.bind_eq_some_iff] at h
      obtain ⟨f, -, connection, -, -, -, same⟩ := h
      cases same
      have called := inv.called (turns_perform ⟨.handle (.connection connection.1 connection.2 event),
        s.now, takeOver⟩) s.flights
      split_ifs
      · exact called.of_same rfl rfl
      · exact called

theorem attached_inv (ownReconnectBudget now : ℕ) (sfuFallback : Bool) :
    Inv format msc4195Identity us join (PoolTasks.start
      (attachedConfig format msc4195Identity us join ownReconnectBudget sfuFallback) now) where
  transports := rfl
  backed := fun _ _ _ there => nomatch there
  taken := rfl
  ours := List.forall_mem_singleton.mpr ⟨join, rfl, rfl, by
    cases LiveKitTarget.forTransport join us.userId <;> rfl⟩
  latest := rfl

/-- Peers find our media where it is: whatever we publish, of the join or of a focus that our
media moved to, is read back as it was, and names our focus and the identity that our handle
has there. -/
theorem publications_found (format : TargetFormat) (msc4195Identity : String → String → String)
    (us : OwnMemberClaims) (join : LiveKitTransport) (ownReconnectBudget now : ℕ)
    (sfuFallback : Bool) {actions : List Action} {s : System}
    (h : run PoolTasks.step (PoolTasks.start
      (attachedConfig format msc4195Identity us join ownReconnectBudget sfuFallback) now)
        actions = some s) :
    (∀ published ∈ publications format us join s.reported, ∃ livekit,
      published.2 = .liveKit livekit ∧
        Found format msc4195Identity us join published.1 livekit) ∧
    s.pool.ownConnectionKey = (publications format us join s.reported).getLast?.map Prod.fst := by
  have inv := run_invariant_of_step (fun _ _ _ inv stepped => Inv.step inv stepped)
    (attached_inv ownReconnectBudget now sfuFallback) h
  exact ⟨fun published there => found_of_ours (inv.ours published there), inv.latest⟩

end

def alice : OwnMemberClaims := { memberId := "alice-1", userId := "@alice:a.x", deviceId := "A" }

/-- The SFU of the homeserver of whoever publishes it. -/
def sfuTransport (url : String) : LiveKitTransport :=
  ⟨some url, none, none, .inl rfl, fun _ => rfl⟩

def bobOnHisSfu : JoinedMembership :=
  { EncryptionManagers.callMembership "@bob:b.x" "B" "bob-1" "bob" with
    transports := [.liveKit (sfuTransport "wss://b.x")] }

/-- The hashes of the two of them. -/
def hashed (userId _memberId : String) : String :=
  if userId = "@alice:a.x" then "4CLj8hpLRnOZD8ktROO+TUfLbjhC5CGMHcVuvW+cFlc"
  else "weX72wAoWrBM/XzO6g78e3vCU7FgYdSoG764xkoSUvw"

/-- Bob's focus is up, ours never comes up, and our media moves to his. -/
def movedToBob : List Action :=
  [.owner (.applySnapshot [bobOnHisSfu]) (.ok ()), .answer 0 (.ok 20), .deliver 0 (.ok ()),
    .owner (.connectOwn (jsonFormat.toString (.csApi "wss://a.x" "a.x")) 10) (.ok ()), .tick 10000,
    .deliver 2 (.ok ())]

/-- What we publish on Bob's SFU names his homeserver. -/
theorem publications_found_moved : ∃ s,
    run PoolTasks.step (PoolTasks.start
      (attachedConfig jsonFormat hashed alice (sfuTransport "wss://a.x") 60000 true) 0)
        movedToBob = some s ∧
    (publications jsonFormat alice (sfuTransport "wss://a.x") s.reported).map (·.2) =
      [.liveKit (sfuTransport "wss://a.x"),
        .liveKit ⟨some "wss://b.x", none, some "b.x", .inl rfl, fun _ => rfl⟩] ∧
    (∀ published ∈ publications jsonFormat alice (sfuTransport "wss://a.x") s.reported,
      ∃ livekit, published.2 = .liveKit livekit ∧
        Found jsonFormat hashed alice (sfuTransport "wss://a.x") published.1 livekit) ∧
    s.pool.ownConnectionKey = (publications jsonFormat alice (sfuTransport "wss://a.x")
      s.reported).getLast?.map Prod.fst :=
  ⟨_, (Option.some_get (by decide +kernel)).symm, by decide +kernel,
    publications_found jsonFormat hashed alice (sfuTransport "wss://a.x") 60000 0 true
      (Option.some_get (by decide +kernel)).symm⟩

end MatrixRtc.PublishedFoci

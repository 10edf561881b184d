import MatrixRtc.SessionOperations
import Mathlib.Data.List.Nodup

/-!
# One candidate a membership

How often a key occurs among the candidates of a session. The ordinary path replaces in
place; a delayed leave in a complete set adds the candidate it keeps without looking for
it among those the set has brought already.
-/
namespace MatrixRtc.CandidateKeys
open MemberEvents RoomSlots SlotSessions SessionOperations StepRuns

/-- How many candidates stand under the key. -/
def occurrences (key : String × String) (candidates : List JoinedMembership) : ℕ :=
  (candidates.map candidateKey).count key

/-- No two candidates stand under one key. -/
def OneEach (s : SlotSession) : Prop := (s.candidates.map candidateKey).Nodup

instance : DecidablePred OneEach := fun s =>
  inferInstanceAs (Decidable (s.candidates.map candidateKey).Nodup)

theorem oneEach_iff {s : SlotSession} : OneEach s ↔ ∀ key, occurrences key s.candidates ≤ 1 :=
  List.nodup_iff_count_le_one

/-- An event after which a candidate of the previous set is among the candidates. -/
def keeps (s : SlotSession) : RtcMembershipEvent → Bool
  | .joined _ => true
  | .left left => s.holds left

/-- A leave that is applied rather than held. -/
def removes (s : SlotSession) : RtcMembershipEvent → Bool
  | .joined _ => false
  | .left left => !s.holds left

/-- A delayed leave that keeps a candidate of the previous set. -/
def revives (s : SlotSession) : RtcMembershipEvent → Bool
  | .joined _ => false
  | .left left =>
      s.holds left && s.candidates.any (SlotSession.under (left.sender, left.stickyKey))

/-- A leave of the key is applied. -/
def removedBy (s : SlotSession) (key : String × String) (events : List RtcMembershipEvent) :
    Bool :=
  events.any fun event => keyOf event == key && removes s event

/-- The latest event of the key, in the events so far (latest first), keeps it. -/
def stands (s : SlotSession) (seen : List RtcMembershipEvent) (key : String × String) : Bool :=
  (seen.find? fun event => keyOf event == key).any (keeps s)

/-- A delayed leave that keeps a candidate comes after a join, or another such leave, of
the same key only if a leave of the key applied later in the set removes them all. -/
def Apart (s : SlotSession) :
    List RtcMembershipEvent → List RtcMembershipEvent → Prop
  | _, [] => True
  | seen, event :: rest =>
      (revives s event = true → stands s seen (keyOf event) = true →
        removedBy s (keyOf event) rest = true) ∧ Apart s (event :: seen) rest

/-- Whether a session that knows one candidate a key knows so after the operation. -/
def InTurn (s : SlotSession) : Operation → Prop
  | .setCurrentState _ events => Apart s [] events
  | .join _ _ | .leave | .update _ _ | .expireHolds _ | .setSlotState _ | .forgetSlotState
  | .setRoomEncryption _ | .setRoomMembers _ => True

instance Apart.decidable (s : SlotSession) : (seen events : List RtcMembershipEvent) →
    Decidable (Apart s seen events)
  | _, [] => isTrue trivial
  | seen, event :: rest =>
      have : Decidable (Apart s (event :: seen) rest) := Apart.decidable s (event :: seen) rest
      inferInstanceAs (Decidable ((revives s event = true → stands s seen (keyOf event) = true →
        removedBy s (keyOf event) rest = true) ∧ Apart s (event :: seen) rest))

instance (s : SlotSession) : DecidablePred (InTurn s)
  | .setCurrentState _ events => Apart.decidable s [] events
  | .join _ _ | .leave | .update _ _ | .expireHolds _ | .setSlotState _ | .forgetSlotState
  | .setRoomEncryption _ | .setRoomMembers _ => isTrue trivial

section Counting
variable {key : String × String} {candidates : List JoinedMembership}

theorem occurrences_cons (c : JoinedMembership) :
    occurrences key (c :: candidates) =
      occurrences key candidates + if candidateKey c = key then 1 else 0 := by
  simp [occurrences, List.count_cons]

theorem occurrences_append (c : JoinedMembership) :
    occurrences key (candidates ++ [c]) =
      occurrences key candidates + if candidateKey c = key then 1 else 0 := by
  simp [occurrences, List.count_append, List.count_singleton]

/-- Replacing in place adds a key only where there was none. -/
theorem occurrences_replaceOrPush (joined : JoinedMembership) :
    occurrences key (SlotSession.replaceOrPush joined candidates) =
      if candidateKey joined = key then max (occurrences key candidates) 1
      else occurrences key candidates := by
  induction candidates with
  | nil =>
      by_cases own : candidateKey joined = key <;>
        simp [SlotSession.replaceOrPush, occurrences, own]
  | cons first rest ih =>
      simp only [SlotSession.replaceOrPush]
      split_ifs with same own own
      · have eq : candidateKey first = key := (under_iff.mp same).trans own
        simp only [occurrences_cons, own, eq, if_true]
        omega
      · have ne : candidateKey first ≠ key := fun eq => own ((under_iff.mp same).symm.trans eq)
        simp only [occurrences_cons, own, ne, if_false]
      · have ne : candidateKey first ≠ key := by
          intro eq
          exact same (under_iff.mpr (eq.trans own.symm))
        simp only [occurrences_cons, ih, own, ne, if_true, if_false, Nat.add_zero]
      · simp only [occurrences_cons, ih, own, if_false]

theorem occurrences_filter (removed : String × String) :
    occurrences key (candidates.filter fun c => !SlotSession.under removed c) =
      if key = removed then 0 else occurrences key candidates := by
  induction candidates with
  | nil => simp [occurrences]
  | cons first rest ih =>
      by_cases there : candidateKey first = removed
      · rw [List.filter_cons_of_neg (by simp [under_iff.mpr there]), ih, occurrences_cons, there]
        by_cases same : key = removed
        · simp [same]
        · simp [same, Ne.symm same]
      · rw [List.filter_cons_of_pos (by simp [under_eq_false.mpr there]), occurrences_cons, ih,
          occurrences_cons]
        by_cases same : key = removed
        · simp [same, there]
        · simp [same]

end Counting

section Rebuilding
variable {previous s : SlotSession} {now : ℕ} {event : RtcMembershipEvent} {key : String × String}

@[simp] theorem recordMembershipEvent_own :
    (s.recordMembershipEvent now event).ownParticipation = s.ownParticipation := by
  cases event with
  | joined joined => rfl
  | left left =>
      simp only [SlotSession.recordMembershipEvent]
      split_ifs <;> rfl

theorem rebuild_own :
    (SlotSession.rebuild previous now s event).ownParticipation = s.ownParticipation := by
  unfold SlotSession.rebuild
  cases SlotSession.heldCandidate previous s event with
  | none => exact recordMembershipEvent_own
  | some kept => rfl

theorem holds_of_own (own : s.ownParticipation = previous.ownParticipation)
    (left : LeftMembership) : s.holds left = previous.holds left := by
  simp only [SlotSession.holds, own]

/-- What one event of a complete set does to the number of candidates under a key. -/
inductive Rebuilds (previous s : SlotSession) (event : RtcMembershipEvent) (t : SlotSession) : Prop
  | joins (keeps : keeps previous event = true) (stays : removes previous event = false)
      (first : revives previous event = false)
      (count : ∀ key, occurrences key t.candidates =
        if keyOf event = key then max (occurrences key s.candidates) 1
        else occurrences key s.candidates)
  | revives (keeps : keeps previous event = true) (stays : removes previous event = false)
      (known : keyOf event ∈ previous.candidates.map candidateKey)
      (again : revives previous event = true)
      (count : ∀ key, occurrences key t.candidates =
        occurrences key s.candidates + if keyOf event = key then 1 else 0)
  | removes (goes : keeps previous event = false) (removes : removes previous event = true)
      (first : CandidateKeys.revives previous event = false)
      (count : ∀ key, occurrences key t.candidates =
        if key = keyOf event then 0 else occurrences key s.candidates)
  | ignores (stays : CandidateKeys.removes previous event = false)
      (unknown : keyOf event ∉ previous.candidates.map candidateKey)
      (first : CandidateKeys.revives previous event = false)
      (count : ∀ key, occurrences key t.candidates = occurrences key s.candidates)

theorem rebuild_spec (now : ℕ) (event : RtcMembershipEvent)
    (own : s.ownParticipation = previous.ownParticipation) :
    Rebuilds previous s event (SlotSession.rebuild previous now s event) := by
  cases event with
  | joined joined =>
      apply Rebuilds.joins rfl rfl rfl
      intro key
      exact occurrences_replaceOrPush joined
  | left left =>
      have same := holds_of_own own left
      unfold SlotSession.rebuild
      cases holds : previous.holds left with
      | false =>
          have none : SlotSession.heldCandidate previous s (.left left) = none := by
            simp [SlotSession.heldCandidate, same, holds]
          simp only [none, SlotSession.recordMembershipEvent, same, holds, Bool.and_false,
            Bool.false_eq_true, if_false]
          apply Rebuilds.removes (by simp [keeps, holds]) (by simp [removes, holds])
            (by simp [revives, holds])
          intro key
          exact occurrences_filter _
      | true =>
          by_cases known : keyOf (.left left) ∈ previous.candidates.map candidateKey
          · have any := any_under.mpr known
            obtain ⟨c, found⟩ : ∃ c, previous.candidates.find?
                (SlotSession.under (left.sender, left.stickyKey)) = some c := by
              rw [← Option.isSome_iff_exists, List.find?_isSome]
              exact List.any_eq_true.mp any
            have kept : SlotSession.heldCandidate previous s (.left left) = some (c, left) := by
              simp [SlotSession.heldCandidate, same, holds, found]
            simp only [kept]
            apply Rebuilds.revives (by simp [keeps, holds]) (by simp [removes, holds]) known
              (Bool.and_eq_true_iff.mpr ⟨holds, any⟩)
            intro key
            have eq : candidateKey c = keyOf (.left left) := under_iff.mp (List.find?_some found)
            exact (occurrences_append c).trans (by rw [eq])
          · have any : previous.candidates.any
                (SlotSession.under (left.sender, left.stickyKey)) = false := by
              rw [← Bool.not_eq_true, any_under]
              exact known
            have none : SlotSession.heldCandidate previous s (.left left) = none := by
              simp only [SlotSession.heldCandidate, same, holds, if_true, Option.map_eq_none_iff,
                List.find?_eq_none]
              exact fun c member => List.any_eq_false.mp any c member
            simp only [none, SlotSession.recordMembershipEvent, same, holds, Bool.and_true]
            apply Rebuilds.ignores (by simp [removes, holds]) known (by simp [revives, any])
            intro key
            split_ifs with there already
            · rfl
            · rfl
            · rw [any_under] at there
              exact congrArg (occurrences key) (filter_unknown there)

/-- The candidates so far hold a key of the previous set exactly if it stands. -/
def Tracked (previous s : SlotSession) (seen : List RtcMembershipEvent) : Prop :=
  s.ownParticipation = previous.ownParticipation ∧
    ∀ key ∈ previous.candidates.map candidateKey,
      (0 < occurrences key s.candidates ↔ stands previous seen key = true)

theorem stands_cons (seen : List RtcMembershipEvent) :
    stands previous (event :: seen) key =
      if keyOf event = key then keeps previous event else stands previous seen key := by
  by_cases same : keyOf event = key <;> simp [stands, same]

theorem removedBy_cons (rest : List RtcMembershipEvent) :
    removedBy previous key (event :: rest) =
      (decide (keyOf event = key) && removes previous event || removedBy previous key rest) := by
  simp [removedBy, beq_eq_decide]

theorem Tracked.rebuild {seen : List RtcMembershipEvent} (tracked : Tracked previous s seen) :
    Tracked previous (SlotSession.rebuild previous now s event) (event :: seen) := by
  obtain ⟨own, count⟩ := tracked
  refine ⟨rebuild_own.trans own, fun key there => ?_⟩
  have before := count key there
  rw [stands_cons]
  cases rebuild_spec now event own with
  | joins keeps _ _ after | revives keeps _ _ _ after =>
      rw [after key]
      by_cases same : keyOf event = key
      · simp [same, keeps]
      · simp [same, before]
  | removes goes _ _ after =>
      rw [after key]
      by_cases same : keyOf event = key
      · simp [same, goes]
      · simp [same, Ne.symm same, before]
  | ignores _ unknown _ after =>
      rw [after key]
      have other : keyOf event ≠ key := fun eq => unknown (eq ▸ there)
      simp [other, before]

/-- At the end of a set a key occurs once exactly if every delayed leave that added its
candidate again is followed by a leave that removes them. -/
theorem rebuilt_iff (now : ℕ) {seen : List RtcMembershipEvent} (rest : List RtcMembershipEvent)
    (tracked : Tracked previous s seen) :
    OneEach (rest.foldl (SlotSession.rebuild previous now) s) ↔
      (∀ key, occurrences key s.candidates ≤ 1 ∨ removedBy previous key rest = true) ∧
        Apart previous seen rest := by
  induction rest generalizing s seen with
  | nil => simp [oneEach_iff, removedBy, Apart]
  | cons event rest ih =>
      rw [List.foldl_cons, ih tracked.rebuild, Apart, ← and_assoc]
      refine and_congr_left' ?_
      cases rebuild_spec now event tracked.1 with
      | joins _ stays first after =>
          simp only [first, removedBy_cons, stays, Bool.and_false, Bool.false_or, after,
            Bool.false_eq_true, false_imp_iff, and_true]
          refine forall_congr' fun key => or_congr_left ?_
          split_ifs <;> omega
      | ignores stays _ first after =>
          simp only [first, removedBy_cons, stays, Bool.and_false, Bool.false_or, after,
            Bool.false_eq_true, false_imp_iff, and_true]
      | removes _ removes first after =>
          simp only [first, removedBy_cons, removes, Bool.and_true, after, Bool.false_eq_true,
            false_imp_iff, and_true]
          refine forall_congr' fun key => ?_
          by_cases same : keyOf event = key
          · simp [same]
          · simp [same, Ne.symm same]
      | revives _ stays known again after =>
          have standing := tracked.2 _ known
          simp only [again, removedBy_cons, stays, Bool.and_false, Bool.false_or, after,
            forall_const, ← standing]
          constructor
          · intro all
            refine ⟨fun key => (all key).imp_left (by omega), fun there => ?_⟩
            have here := all (keyOf event)
            rw [if_pos rfl] at here
            exact here.resolve_left (by omega)
          · rintro ⟨all, later⟩ key
            by_cases same : keyOf event = key
            · subst same
              rw [if_pos rfl]
              by_cases there : 0 < occurrences (keyOf event) s.candidates
              · exact Or.inr (later there)
              · exact Or.inl (by omega)
            · rw [if_neg same]
              exact all key

end Rebuilding

section Operations
variable {s : SlotSession}

theorem setCurrentState_oneEach (now : ℕ) (events : List RtcMembershipEvent) :
    OneEach (s.setCurrentState now events) ↔ Apart s [] events := by
  have tracked : Tracked s { s with candidates := [], held := [] } [] :=
    ⟨rfl, fun key _ => by simp [occurrences, stands]⟩
  have iff := rebuilt_iff now events tracked
  exact iff.trans (and_iff_right fun key => Or.inl (Nat.zero_le _))

theorem OneEach.record (one : OneEach s) (now : ℕ) (event : RtcMembershipEvent) :
    OneEach (s.recordMembershipEvent now event) := by
  cases event with
  | joined joined =>
      rw [oneEach_iff] at one ⊢
      intro key
      have before := one key
      have after : occurrences key (s.recordMembershipEvent now (.joined joined)).candidates =
          if candidateKey joined = key then max (occurrences key s.candidates) 1
          else occurrences key s.candidates := occurrences_replaceOrPush joined
      rw [after]
      split_ifs <;> omega
  | left left =>
      simp only [SlotSession.recordMembershipEvent]
      split_ifs
      · exact one
      · exact one
      · exact one.sublist (List.filter_sublist.map _)

theorem OneEach.expireHolds (one : OneEach s) (now : ℕ) : OneEach (s.expireHolds now) := by
  unfold SlotSession.expireHolds
  dsimp only
  split_ifs
  · exact one
  · exact one.sublist (List.filter_sublist.map _)

/-- Only a complete set can bring a key twice. -/
theorem perform_oneEach (one : OneEach s) (op : Operation) :
    OneEach (perform s op) ↔ InTurn s op := by
  cases op with
  | setCurrentState now events => exact setCurrentState_oneEach now events
  | update now event =>
      refine iff_of_true ?_ trivial
      simp only [perform, update]
      split_ifs <;> exact one.record now event
  | expireHolds now => exact iff_of_true (one.expireHolds now) trivial
  | join own sent =>
      refine iff_of_true ?_ trivial
      simp only [perform]
      split_ifs <;> exact one
  | leave =>
      refine iff_of_true ?_ trivial
      simp only [perform]
      split_ifs <;> exact one
  | setSlotState state =>
      refine iff_of_true ?_ trivial
      simp only [perform, SlotSession.setSlotState]
      split_ifs <;> exact one
  | forgetSlotState =>
      refine iff_of_true ?_ trivial
      simp only [perform, SlotSession.forgetSlotState]
      split_ifs <;> exact one
  | setRoomEncryption encryption =>
      refine iff_of_true ?_ trivial
      simp only [perform, SlotSession.setRoomEncryption]
      split_ifs <;> exact one
  | setRoomMembers members =>
      refine iff_of_true ?_ trivial
      simp only [perform, SlotSession.setRoomMembers]
      split_ifs <;> exact one

end Operations

def step (s : SlotSession) (op : Operation) : Option SlotSession := some (perform s op)

/-- No two candidates share a key all along exactly the runs in which every complete set
is in turn. -/
theorem one_candidate_each_iff (slot : SlotKnowledge) (roomMembers : Option (Finset String))
    (encryption : RoomEncryption) (ops : List Operation) :
    Always step OneEach (fresh slot roomMembers encryption) ops ↔
      Admissible step InTurn (fresh slot roomMembers encryption) ops := by
  have start : OneEach (fresh slot roomMembers encryption) := List.nodup_nil
  have total : ∀ s op, ∃ u, step s op = some u := fun s op => ⟨perform s op, rfl⟩
  obtain ⟨t, ran⟩ := run_total total (fresh slot roomMembers encryption) ops
  refine always_iff_admissible (I := fun _ => True) (fun _ _ _ _ _ => trivial) ?_ trivial start ran
  intro s op u _ one taken
  cases taken
  exact perform_oneEach one op

/-- A complete set with Bob's join and a delayed leave of the same key, which it can hold
under the two spellings of the event type. -/
theorem not_always_one_candidate_each : ¬ ∀ (slot : SlotKnowledge)
    (roomMembers : Option (Finset String)) (encryption : RoomEncryption) (ops : List Operation),
    Always step OneEach (fresh slot roomMembers encryption) ops := by
  intro always
  have broken := always .unsupplied none .unknown
    [.update 0 (.joined bob), .setCurrentState 1 [.joined bob, .left (bobLeaves .delayedLeave)]]
  revert broken
  decide

end MatrixRtc.CandidateKeys

import MatrixRtc.MemberEvents
import MatrixRtc.StepRuns

/-!
# The ends of the sessions of a slot

A join of a slot is a participation of the core's, and a session of the host's on top of it.
What ends a session marks it over first and then waits for the room's lock to leave the slot.
The lock is held across the awaits of a join, of a leave and of the feed, and who gets it
next is not said here. Participations are numbered, as their member ids may repeat.
-/
namespace MatrixRtc.SessionEnds
open MemberEvents StepRuns

/-- Why and whether a session is over. -/
structure SessionEnd where
  live : Bool
  ended : Option LeaveReason
deriving DecidableEq

namespace SessionEnd

def new : SessionEnd := ⟨true, none⟩

/-- `end_quietly`; `end` tells the call's status besides. -/
def endQuietly (e : SessionEnd) (reason : LeaveReason) : SessionEnd :=
  if e.live then ⟨false, some reason⟩ else e

/-- `abandon`: there is no ending to report. -/
def abandon (e : SessionEnd) : SessionEnd := { e with live := false }

end SessionEnd

/-- A leave that waits for the lock, and how many participations had begun when its session
was marked over. -/
structure WaitingLeave where
  reason : LeaveReason
  begun : ℕ
deriving DecidableEq

/-- A session, its leave, and whether the core's own leave is in the channel of its follower. -/
structure Session where
  participation : ℕ
  sessionEnd : SessionEnd
  dropped : Bool
  leaving : Option WaitingLeave
  told : Bool
deriving DecidableEq

def Session.new (participation : ℕ) : Session := ⟨participation, .new, false, none, false⟩

/-- Who holds the room's lock: a join, and whether it began its participation; a leave whose
participation has ended; or the feed, and the participation the core left in it. -/
inductive Holder where
  | join (began : Bool)
  | leave
  | feed (left : Option ℕ)
deriving DecidableEq

/-- A slot of a room, its sessions from the newest on, and for each leave that took effect the
session it was issued for and the participation it ended. -/
structure Room where
  lock : Option Holder
  joined : Option ℕ
  begun : ℕ
  sessions : List Session
  ends : List (ℕ × ℕ)
deriving DecidableEq

inductive Action where
  | joinStarts
  | joinLeaves
  | joinBegins
  | joinSucceeds
  | joinFails
  | over_ (participation : ℕ) (reason : LeaveReason)
  | leaves (participation : ℕ)
  | released
  | cancelled (participation : ℕ)
  | dropped (participation : ℕ)
  | feedStarts
  | slotCloses
  | feedDone
  | followed (participation : ℕ)

namespace Room

def start : Room := ⟨none, none, 0, [], []⟩

variable (r : Room)

/-- `live_session`: the one the slot's id maps to, which is the last that was joined. -/
def liveSession : Bool := r.sessions.head?.any (·.sessionEnd.live)

def session (participation : ℕ) : Option Session :=
  r.sessions.find? (·.participation == participation)

/-- The session in the place of the one of its participation. -/
def put (s : Session) : Room :=
  { r with sessions := r.sessions.map fun other =>
      if other.participation = s.participation then s else other }

/-- `begin_leave` on behalf of a session: it addresses the slot, whoever has joined it. -/
def beginLeave (participation : ℕ) : Room :=
  match r.joined with
  | some joined => { r with joined := none, ends := r.ends ++ [(participation, joined)] }
  | none => r

end Room

/-- The reason of the core's own leave. -/
def slotClosed : LeaveReason := ⟨.slotClosed, none⟩

def step (r : Room) : Action → Option Room
  -- `prepare_join`, refused while the session of the slot is live
  | .joinStarts =>
      if r.lock = none ∧ r.liveSession = false then some { r with lock := some (.join false) }
      else none
  -- a participation whose session was dropped is left first
  | .joinLeaves =>
      if r.lock = some (.join false) ∧ r.joined.isSome then some { r with joined := none } else none
  | .joinBegins =>
      if r.lock = some (.join false) ∧ r.joined = none then
        some { r with
          lock := some (.join true), joined := some r.begun, begun := r.begun + 1 }
      else none
  | .joinSucceeds =>
      if r.lock = some (.join true) then
        r.joined.map fun joined => { r with lock := none, sessions := .new joined :: r.sessions }
      else none
  -- also where its future is dropped: what it began stays
  | .joinFails =>
      if r.lock = some (.join false) ∨ r.lock = some (.join true) then some { r with lock := none }
      else none
  -- `RtcSession::leave`, `follow_direct_call` and `follow_media_loss`, before they wait
  | .over_ participation reason =>
      (r.session participation).bind fun s =>
        if s.sessionEnd.live then
          some (r.put { s with
            sessionEnd := s.sessionEnd.endQuietly reason, leaving := some ⟨reason, r.begun⟩ })
        else none
  | .leaves participation =>
      (r.session participation).bind fun s =>
        if r.lock = none ∧ s.leaving.isSome then
          some { (r.put { s with leaving := none }).beginLeave participation with
            lock := some .leave }
        else none
  | .released => if r.lock = some .leave then some { r with lock := none } else none
  -- the future of the leave is dropped, or its task is aborted
  | .cancelled participation =>
      (r.session participation).map fun s => r.put { s with leaving := none }
  | .dropped participation =>
      (r.session participation).map fun s =>
        r.put { s with sessionEnd := s.sessionEnd.abandon, dropped := true, leaving := none }
  | .feedStarts => if r.lock = none then some { r with lock := some (.feed none) } else none
  -- `auto_leave`, whose sends are awaited before it is announced
  | .slotCloses =>
      if r.lock = some (.feed none) then
        r.joined.map fun joined => { r with lock := some (.feed (some joined)), joined := none }
      else none
  | .feedDone =>
      match r.lock with
      | some (.feed none) => some { r with lock := none }
      | some (.feed (some _)) =>
          some { r with lock := none, sessions := r.sessions.map fun s => { s with told := true } }
      | _ => none
  -- `follow_auto_leave`
  | .followed participation =>
      (r.session participation).bind fun s =>
        if s.told ∧ s.dropped = false then
          some (r.put { s with sessionEnd := s.sessionEnd.endQuietly slotClosed })
        else none

/-- The core has left the session's participation on its own, and its follower is still to
hear of it. -/
def Unfollowed (r : Room) (s : Session) : Prop :=
  s.told ∨ r.lock = some (.feed (some s.participation))

instance (r : Room) (s : Session) : Decidable (Unfollowed r s) :=
  inferInstanceAs (Decidable (_ ∨ _))

/-- Each leave ended the participation of the session it was issued for, and each session
whose participation has ended is not live, where it need not be told yet. -/
structure Right (r : Room) : Prop where
  own : ∀ e ∈ r.ends, e.1 = e.2
  over_ : ∀ s ∈ r.sessions, r.joined ≠ some s.participation →
    s.sessionEnd.live = false ∨ Unfollowed r s

instance (r : Room) : Decidable (Right r) :=
  decidable_of_iff
    ((∀ e ∈ r.ends, e.1 = e.2) ∧ ∀ s ∈ r.sessions, r.joined ≠ some s.participation →
      s.sessionEnd.live = false ∨ Unfollowed r s)
    ⟨fun h => ⟨h.1, h.2⟩, fun h => ⟨h.own, h.over_⟩⟩

/-- A leave gets the lock before another participation has begun, or where none stands. -/
def Unovertaken (r : Room) : Action → Prop
  | .leaves participation => ∀ s ∈ r.session participation, ∀ leave ∈ s.leaving,
      leave.begun = r.begun ∨ r.joined = none
  | _ => True

instance (r : Room) (a : Action) : Decidable (Unovertaken r a) := by
  unfold Unovertaken
  split
  · infer_instance
  · infer_instance

section
variable {r q : Room} {s t : Session} {participation : ℕ}

/-- Where a room stands. -/
structure Inv (r : Room) : Prop where
  newest : r.sessions.Pairwise fun a b => b.participation < a.participation
  past : ∀ s ∈ r.sessions, s.participation < r.begun
  latest : ∀ joined ∈ r.joined, joined + 1 = r.begun
  current : ∀ s ∈ r.sessions, s.sessionEnd.live → s.participation + 1 = r.begun
  joining : ∀ began, r.lock = some (.join began) → ∀ s ∈ r.sessions, s.sessionEnd.live = false
  fresh : r.lock = some (.join true) → ∀ s ∈ r.sessions, s.participation + 1 < r.begun
  waiting : ∀ s ∈ r.sessions, ∀ leave ∈ s.leaving,
    leave.begun = s.participation + 1 ∧ s.sessionEnd.live = false
  right : Right r

theorem mem_of_session (found : r.session participation = some s) :
    s ∈ r.sessions ∧ s.participation = participation :=
  ⟨List.mem_of_find?_eq_some found, by simpa using List.find?_some found⟩

theorem of_mem_put (there : t ∈ (r.put s).sessions) :
    t = s ∨ t ∈ r.sessions ∧ t.participation ≠ s.participation := by
  obtain ⟨other, before, rfl⟩ := List.mem_map.mp there
  split_ifs with same
  · exact .inl rfl
  · exact .inr ⟨before, same⟩

theorem participations_put (r : Room) (s : Session) :
    (r.put s).sessions.map (·.participation) = r.sessions.map (·.participation) := by
  rw [Room.put, List.map_map]
  refine List.map_congr_left fun other _ => ?_
  rw [Function.comp_apply]
  split_ifs with same
  · exact same.symm
  · rfl

/-- Only the newest session may be live. -/
theorem Inv.over_of_not_liveSession (inv : Inv r) (over_ : r.liveSession = false)
    (there : s ∈ r.sessions) : s.sessionEnd.live = false := by
  cases sessions : r.sessions with
  | nil =>
      rw [sessions] at there
      cases there
  | cons newest older =>
      rw [Room.liveSession, sessions] at over_
      have sorted := inv.newest
      rw [sessions] at there sorted
      obtain rfl | there := List.mem_cons.mp there
      · exact over_
      · by_contra live
        have before := (List.pairwise_cons.mp sorted).1 s there
        have is_latest := inv.current s (sessions ▸ List.mem_cons_of_mem _ there)
          (Bool.of_not_eq_false live)
        have past := inv.past newest (sessions ▸ List.mem_cons_self)
        omega

/-- What becomes of a session that is changed in its place, where it is not revived. -/
theorem Inv.put (inv : Inv r) (found : r.session participation = some s)
    (same : t.participation = s.participation)
    (live : t.sessionEnd.live = true → s.sessionEnd.live = true) (told : t.told = s.told)
    (leaving : ∀ leave ∈ t.leaving,
      leave.begun = s.participation + 1 ∧ t.sessionEnd.live = false) : Inv (r.put t) := by
  obtain ⟨there, -⟩ := mem_of_session found
  have dead (over_ : s.sessionEnd.live = false) : t.sessionEnd.live = false := by
    by_contra is_live
    rw [live (Bool.of_not_eq_false is_live)] at over_
    cases over_
  refine ⟨?_, fun u in_ => ?_, inv.latest, fun u in_ is_live => ?_, fun began joins u in_ => ?_,
    fun joins u in_ => ?_, fun u in_ => ?_, ⟨inv.right.own, fun u in_ ended => ?_⟩⟩
  · have sorted : (r.sessions.map (·.participation)).Pairwise fun a b => b < a :=
      List.pairwise_map.mpr inv.newest
    rw [← participations_put r t] at sorted
    exact List.pairwise_map.mp sorted
  · obtain rfl | ⟨before, -⟩ := of_mem_put in_
    · rw [same]
      exact inv.past s there
    · exact inv.past u before
  · obtain rfl | ⟨before, -⟩ := of_mem_put in_
    · rw [same]
      exact inv.current s there (live is_live)
    · exact inv.current u before is_live
  · obtain rfl | ⟨before, -⟩ := of_mem_put in_
    · exact dead (inv.joining began joins s there)
    · exact inv.joining began joins u before
  · obtain rfl | ⟨before, -⟩ := of_mem_put in_
    · rw [same]
      exact inv.fresh joins s there
    · exact inv.fresh joins u before
  · obtain rfl | ⟨before, -⟩ := of_mem_put in_
    · rw [same]
      exact leaving
    · exact inv.waiting u before
  · obtain rfl | ⟨before, -⟩ := of_mem_put in_
    · obtain over_ | unfollowed := inv.right.over_ s there (same ▸ ended)
      · exact .inl (dead over_)
      · refine .inr ?_
        rw [Unfollowed, told, same]
        exact unfollowed
    · exact inv.right.over_ u before ended

theorem live_endQuietly {e : SessionEnd} {reason : LeaveReason} :
    (e.endQuietly reason).live = false := by
  unfold SessionEnd.endQuietly
  split_ifs with live
  · rfl
  · exact Bool.of_not_eq_true live

theorem inv_start : Inv .start where
  newest := .nil
  past _ there := nomatch there
  latest _ is := nomatch is
  current _ there := nomatch there
  joining _ joins := nomatch joins
  fresh joins := nomatch joins
  waiting _ there := nomatch there
  right := ⟨fun _ there => (nomatch there), fun _ there => nomatch there⟩

/-- The lock goes to another holder that is no join, where nothing is left to announce. -/
theorem Inv.relock (inv : Inv r) {lock : Option Holder}
    (open_ : ∀ left, r.lock ≠ some (.feed (some left))) (other : ∀ began, lock ≠ some (.join began)) :
    Inv { r with lock := lock } where
  newest := inv.newest
  past := inv.past
  latest := inv.latest
  current := inv.current
  joining began joins := absurd joins (other began)
  fresh joins := absurd joins (other true)
  waiting := inv.waiting
  right :=
    { own := inv.right.own
      over_ := fun s there ended => by
        obtain over_ | told | closing := inv.right.over_ s there ended
        · exact .inl over_
        · exact .inr (.inl told)
        · exact absurd closing (open_ s.participation) }

theorem Inv.own_of_unovertaken (inv : Inv r) (found : r.session participation = some s)
    {leave : WaitingLeave} (waits : leave ∈ s.leaving)
    (unovertaken : leave.begun = r.begun ∨ r.joined = none) :
    r.joined = none ∨ r.joined = some participation := by
  obtain ⟨there, same⟩ := mem_of_session found
  cases is_joined : r.joined with
  | none => exact .inl rfl
  | some joined =>
      rw [is_joined] at unovertaken
      have begun := unovertaken.resolve_right (Option.some_ne_none joined)
      have since := (inv.waiting s there leave waits).1
      have latest := inv.latest joined is_joined
      exact .inr (congrArg some (by omega))

/-- The leave of a session that is over ends its participation, and no session is left live. -/
theorem Inv.leaves (inv : Inv r) (free : r.lock = none)
    (found : r.session participation = some s) (waits : s.leaving.isSome)
    (unovertaken : ∀ leave ∈ s.leaving, leave.begun = r.begun ∨ r.joined = none) :
    Inv { (r.put { s with leaving := none }).beginLeave participation with
      lock := some .leave } := by
  obtain ⟨there, same⟩ := mem_of_session found
  obtain ⟨leave, waits⟩ := Option.isSome_iff_exists.mp waits
  have over_ := (inv.waiting s there leave waits).2
  have put := inv.put (t := { s with leaving := none }) found rfl id rfl fun _ waits =>
    nomatch waits
  have own := inv.own_of_unovertaken found waits (unovertaken leave waits)
  unfold Room.beginLeave
  rw [show (r.put { s with leaving := none }).joined = r.joined from rfl]
  obtain none_ | joined := own
  · rw [none_]
    exact put.relock (fun left closing => nomatch free.symm.trans closing) fun _ joins =>
      nomatch joins
  · -- a live session would be of the participation that stood, and so be this one
    have dead (t : Session) (in_ : t ∈ (r.put { s with leaving := none }).sessions) :
        t.sessionEnd.live = false := by
      by_contra live
      have live := Bool.of_not_eq_false live
      obtain rfl | ⟨before, other⟩ := of_mem_put in_
      · cases over_.symm.trans live
      · have latest := inv.latest participation joined
        have current := inv.current t before live
        exact other (same.symm ▸ by omega)
    rw [joined]
    exact
      { newest := put.newest, past := put.past
        latest := fun _ is => nomatch is
        current := put.current
        joining := fun _ joins => nomatch joins
        fresh := fun joins => nomatch joins
        waiting := put.waiting
        right :=
          { own := List.forall_mem_append.mpr
              ⟨inv.right.own, fun e there => by rw [List.mem_singleton.mp there]⟩
            over_ := fun t in_ _ => .inl (dead t in_) } }

theorem inv_step {a : Action} (inv : Inv r) (unovertaken : Unovertaken r a)
    (next : step r a = some q) : Inv q := by
  cases a with
  | joinStarts =>
      simp only [step] at next
      split_ifs at next with starts
      cases next
      have over_ {s : Session} (there : s ∈ r.sessions) :=
        inv.over_of_not_liveSession starts.2 there
      exact
        { newest := inv.newest, past := inv.past, latest := inv.latest, current := inv.current
          joining := fun _ _ s there => over_ there
          fresh := fun joins => nomatch joins
          waiting := inv.waiting
          right := ⟨inv.right.own, fun s there _ => .inl (over_ there)⟩ }
  | joinLeaves =>
      simp only [step] at next
      split_ifs at next with leaves
      cases next
      have over_ := inv.joining false leaves.1
      exact
        { newest := inv.newest, past := inv.past
          latest := fun _ is => nomatch is
          current := inv.current, joining := inv.joining, fresh := inv.fresh
          waiting := inv.waiting
          right := ⟨inv.right.own, fun s there _ => .inl (over_ s there)⟩ }
  | joinBegins =>
      simp only [step] at next
      split_ifs at next with begins
      cases next
      have over_ := inv.joining false begins.1
      exact
        { newest := inv.newest
          past := fun s there => Nat.lt_succ_of_lt (inv.past s there)
          latest := fun joined is => congrArg (· + 1) (Option.some.inj is).symm
          current := fun s there live => nomatch (over_ s there).symm.trans live
          joining := fun _ _ => over_
          fresh := fun _ s there => Nat.succ_lt_succ (inv.past s there)
          waiting := inv.waiting
          right := ⟨inv.right.own, fun s there _ => .inl (over_ s there)⟩ }
  | joinSucceeds =>
      simp only [step] at next
      split_ifs at next with succeeds
      obtain ⟨joined, is_joined, rfl⟩ := Option.map_eq_some_iff.mp next
      have over_ := inv.joining true succeeds
      have latest := inv.latest joined is_joined
      refine
        { newest := List.pairwise_cons.mpr ⟨fun s there => ?_, inv.newest⟩
          past := List.forall_mem_cons.mpr ⟨Nat.lt_of_succ_le (Nat.le_of_eq latest), inv.past⟩
          latest := inv.latest
          current := List.forall_mem_cons.mpr ⟨fun _ => latest, inv.current⟩
          joining := fun _ joins => nomatch joins
          fresh := fun joins => nomatch joins
          waiting := List.forall_mem_cons.mpr ⟨fun _ waits => (nomatch waits), inv.waiting⟩
          right := ⟨inv.right.own, List.forall_mem_cons.mpr ⟨fun ended => ?_, ?_⟩⟩ }
      · have before := inv.fresh succeeds s there
        change s.participation < joined
        omega
      · exact absurd is_joined ended
      · exact fun s there _ => .inl (over_ s there)
  | joinFails =>
      simp only [step] at next
      split_ifs at next with fails
      cases next
      refine inv.relock (fun left closing => ?_) fun _ joins => nomatch joins
      obtain joins | joins := fails <;> cases joins.symm.trans closing
  | over_ participation reason =>
      simp only [step] at next
      obtain ⟨s, found, next⟩ := Option.bind_eq_some_iff.mp next
      split_ifs at next with live
      cases next
      obtain ⟨there, -⟩ := mem_of_session found
      refine inv.put found rfl (fun _ => live) rfl fun leave waits => ?_
      obtain rfl := Option.some.inj waits
      exact ⟨(inv.current s there live).symm, live_endQuietly⟩
  | leaves participation =>
      simp only [step] at next
      obtain ⟨s, found, next⟩ := Option.bind_eq_some_iff.mp next
      split_ifs at next with leaves
      cases next
      exact inv.leaves leaves.1 found leaves.2 (unovertaken s found)
  | released =>
      simp only [step] at next
      split_ifs at next with released
      cases next
      refine inv.relock (fun left closing => ?_) fun _ joins => nomatch joins
      cases released.symm.trans closing
  | cancelled participation =>
      obtain ⟨s, found, rfl⟩ := Option.map_eq_some_iff.mp next
      exact inv.put found rfl id rfl fun _ waits => nomatch waits
  | dropped participation =>
      obtain ⟨s, found, rfl⟩ := Option.map_eq_some_iff.mp next
      exact inv.put found rfl (fun live => nomatch live) rfl fun _ waits => nomatch waits
  | feedStarts =>
      simp only [step] at next
      split_ifs at next with free
      cases next
      refine inv.relock (fun left closing => ?_) fun _ joins => nomatch joins
      cases free.symm.trans closing
  | slotCloses =>
      simp only [step] at next
      split_ifs at next with closes
      obtain ⟨joined, is_joined, rfl⟩ := Option.map_eq_some_iff.mp next
      refine
        { newest := inv.newest, past := inv.past
          latest := fun _ is => nomatch is
          current := inv.current
          joining := fun _ joins => nomatch joins
          fresh := fun joins => nomatch joins
          waiting := inv.waiting
          right := ⟨inv.right.own, fun s there _ => ?_⟩ }
      by_cases same : r.joined = some s.participation
      · rw [Option.some.inj (is_joined.symm.trans same)]
        exact .inr (.inr rfl)
      · obtain over_ | told | closing := inv.right.over_ s there same
        · exact .inl over_
        · exact .inr (.inl told)
        · cases closes.symm.trans closing
  | feedDone =>
      simp only [step] at next
      split at next
      · next done =>
        cases next
        refine inv.relock (fun left closing => ?_) fun _ joins => nomatch joins
        cases done.symm.trans closing
      · cases next
        refine
          { newest := List.pairwise_map.mpr inv.newest
            past := List.forall_mem_map.mpr inv.past
            latest := inv.latest
            current := List.forall_mem_map.mpr inv.current
            joining := fun _ joins => nomatch joins
            fresh := fun joins => nomatch joins
            waiting := List.forall_mem_map.mpr inv.waiting
            right := ⟨inv.right.own, List.forall_mem_map.mpr fun s there _ => .inr (.inl rfl)⟩ }
      · cases next
  | followed participation =>
      simp only [step] at next
      obtain ⟨s, found, next⟩ := Option.bind_eq_some_iff.mp next
      split_ifs at next with told
      cases next
      obtain ⟨there, -⟩ := mem_of_session found
      refine inv.put found rfl (fun live => ?_) rfl fun leave waits => ?_
      · rw [live_endQuietly] at live
        cases live
      · exact ⟨(inv.waiting s there leave waits).1, live_endQuietly⟩

end

/-- Where no participation begins between the end of a session and its leave, each leave ends
its own session's participation, and each session whose participation has ended is over, in every
state of every run. The one exception are `Unfollowed` sessions, whose participation the core left
on its own while its leave is still to be announced, or to be read by the session's follower. -/
theorem leaves_end_their_own (as : List Action) (kept : Admissible step Unovertaken .start as) :
    Always step Right .start as :=
  always_of_admissible (fun _ _ _ inv unovertaken next => inv_step inv unovertaken next)
    (fun _ inv => inv.right) inv_start kept

def hangUp : LeaveReason := ⟨.leave, none⟩

/-- Joined twice, left by the host first and by the core then. -/
def leftTwice : List Action :=
  [.joinStarts, .joinBegins, .joinSucceeds, .feedStarts, .over_ 0 hangUp, .feedDone, .leaves 0,
    .released, .joinStarts, .joinBegins, .joinSucceeds, .feedStarts, .slotCloses, .feedDone,
    .followed 1]

theorem leaves_end_their_own_twice :
    (run step .start leftTwice).isSome ∧ Always step Right .start leftTwice :=
  ⟨by decide +kernel, leaves_end_their_own leftTwice (by decide +kernel)⟩

/-- The host hangs up while the feed has the lock, and a join that waits for it gets it first. -/
def overtaken : List Action :=
  [.joinStarts, .joinBegins, .joinSucceeds, .feedStarts, .over_ 0 hangUp, .feedDone,
    .joinStarts, .joinLeaves, .joinBegins, .joinSucceeds, .leaves 0]

/-- The leave of the session that was replaced ends the new participation, whose session stays
live. -/
theorem leave_ends_later_participation : ¬ ∀ as : List Action, Always step Right .start as := by
  intro h
  have right := h overtaken
  revert right
  decide +kernel

end MatrixRtc.SessionEnds

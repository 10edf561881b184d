import MatrixRtc.OperationSegments
import Mathlib.Order.Nat

/-!
# What every run of a participation keeps

The facts about sends, slots and host calls that hold in every reachable state,
whatever is dropped or times out: a send's generation is at most its slot's and no
two sends of a slot share one, an attempt under way holds its slot and stands for an
unanswered call, and once a leave has begun no send of the join is current.
-/
namespace MatrixRtc.UpkeepInvariants
open HostAnswers MemberEvents Outboxes OwnMembership MembershipUpkeep OperationSegments StepRuns

/-- A send stands where its owner, its slot and its call allow. -/
structure SendPlaced (state : OwnMembershipState) (ob : Outbox) (calls : ℕ → Option HostCall)
    (o : Owner) (send : Send) : Prop where
  fits : WorkFits o state send.work
  bound : send.generation ≤ (ob.slot send.work.kind).generation
  closed : ofJoined send.work = true → state = .leaving ∨ state = .left →
    (ob.slot send.work.kind).ended send.generation = some .cancelled
  timed : send.policy.deadline.isSome = true → ofJoin send.work = true
  flight : ∀ n giveUpAt, send.phase = .calling n giveUpAt →
    (ob.slot send.work.kind).inFlight = true ∧
      ∃ call, calls n = some call ∧ call.caller = o ∧ call.answer = none ∧
        call.request = send.work.request ∧
        (call.startedAt + attemptTimeout ≤ giveUpAt ∨ send.policy.overdue giveUpAt = true)

def Placed (s : System) (o : Owner) : Task → Prop
  | .created operation => OperationFits o s.machine.state operation
  | .jitter _ => True
  | .sending send => SendPlaced s.machine.state s.outbox s.calls o send

/-- Two sends of one slot differ in their generations, and only one is at the host. -/
structure Apart (send send' : Send) : Prop where
  distinct : send.generation ≠ send'.generation
  sole : ∀ n g n' g', send.phase = .calling n g → send'.phase ≠ .calling n' g'

structure Wired (s : System) : Prop where
  fresh : ∀ n, s.nextCall ≤ n → s.calls n = none
  placed : ∀ o task, s.tasks o = some task → Placed s o task
  apart : ∀ o o' send send', s.tasks o = some (.sending send) →
    s.tasks o' = some (.sending send') → o ≠ o' → send.work.kind = send'.work.kind →
    Apart send send'

theorem Apart.symm {send send' : Send} (a : Apart send send') : Apart send' send :=
  ⟨a.distinct.symm, fun n g n' g' here there => a.sole n' g' n g there here⟩

section
variable {s : System} {o : Owner}

theorem Placed.setTask {o' : Owner} {task : Task} {t : Option Task} (placed : Placed s o' task) :
    Placed (s.setTask o t) o' task := by
  cases task <;> exact placed

theorem Wired.setTask (w : Wired s) {task : Option Task}
    (placed : ∀ t, task = some t → Placed s o t)
    (apart : ∀ send, task = some (.sending send) → ∀ o' send', o' ≠ o →
      s.tasks o' = some (.sending send') → send.work.kind = send'.work.kind → Apart send send') :
    Wired (s.setTask o task) := by
  refine ⟨w.fresh, fun o' t ht => ?_, fun o₁ o₂ send₁ send₂ h₁ h₂ ne kind => ?_⟩
  · simp only [System.setTask] at ht
    split_ifs at ht with mine
    · rw [mine]
      exact (placed t ht).setTask
    · exact (w.placed o' t ht).setTask
  · simp only [System.setTask] at h₁ h₂
    split_ifs at h₁ h₂ with mine₁ mine₂ mine₂
    · exact absurd (mine₁.trans mine₂.symm) ne
    · exact apart send₁ h₁ o₂ send₂ mine₂ h₂ kind
    · exact (apart send₂ h₂ o₁ send₁ mine₁ h₁ kind.symm).symm
    · exact w.apart o₁ o₂ send₁ send₂ h₁ h₂ ne kind

theorem Wired.setTask_none (w : Wired s) : Wired (s.setTask o none) :=
  w.setTask (fun _ h => by cases h) fun _ h => by cases h

theorem Wired.setTask_created (w : Wired s) (operation : Operation)
    (fits : OperationFits o s.machine.state operation) :
    Wired (s.setTask o (some (.created operation))) :=
  w.setTask (fun t h => by cases h; exact fits) fun _ h => by cases h

/-- A send moved to another phase away from the host. -/
theorem Wired.setTask_phase (w : Wired s) {send send' : Send}
    (held : s.tasks o = some (.sending send)) (work : send'.work = send.work)
    (generation : send'.generation = send.generation) (policy : send'.policy = send.policy)
    (away : ∀ n g, send'.phase ≠ .calling n g) : Wired (s.setTask o (some (.sending send'))) := by
  obtain ⟨fits, bound, closed, timed, -⟩ := w.placed o _ held
  refine w.setTask (fun t h => ?_) fun send'' h o' other ne ho' kind => ?_
  · cases h
    rw [← work] at fits bound closed
    rw [← generation] at bound closed
    rw [← work, ← policy] at timed
    exact ⟨fits, bound, closed, timed, fun n g calling => absurd calling (away n g)⟩
  · cases h
    rw [work] at kind
    have apart := w.apart o o' send other held ho' ne.symm kind
    exact ⟨by rw [generation]; exact apart.distinct, fun n g _ _ calling =>
      absurd calling (away n g)⟩

theorem Wired.touch (w : Wired s) {m : OwnMembershipMachine} (same : m.state = s.machine.state) :
    Wired { s with machine := m } := by
  refine ⟨w.fresh, fun o task ht => ?_, w.apart⟩
  have placed := w.placed o task ht
  cases task with
  | created operation => exact (congrArg (OperationFits o · operation) same).mpr placed
  | jitter wakeAt => trivial
  | sending send =>
      simp only [Placed, same]
      exact placed

/-- What stands elsewhere still does after a segment of `o`. -/
theorem Placed.advance {g : Segment} {o' : Owner} {task : Task} (placed : Placed s o' task)
    (ne : o' ≠ o) (r : Runs o s.machine s.outbox g) :
    Placed { s with machine := g.machine, outbox := g.outbox } o' task := by
  cases task with
  | created operation =>
      cases operation with
      | cancelArmed id => exact ⟨placed.1, r.advance.notJoined placed.2⟩
      | restart | refresh | recover | recoverDeparture | republish => trivial
  | jitter wakeAt => trivial
  | sending send =>
      obtain ⟨fits, bound, closed, timed, flight⟩ := placed
      have fits' := fits.advance ne r.advance
      have leaving := r.advance.leaving
      obtain kept | more := r.next.slots send.work.kind
      · exact ⟨fits', kept ▸ bound, fun mine ended => kept ▸ closed mine (leaving ended), timed,
          fun n g calling => kept ▸ flight n g calling⟩
      · refine ⟨fits', ?_, fun mine ended => ?_, timed, fun n g calling => ?_⟩
        · simp only [more]
          exact bound.trans (Nat.le_succ _)
        · simp only [more]
          exact Slot.ended_register bound (closed mine (leaving ended))
        · simp only [more]
          exact flight n g calling

theorem placed_of_next {m : OwnMembershipMachine} {ob : Outbox} {task : Option Task}
    (next : Next o m s.outbox task ob) (t : Task) (h : task = some t) :
    Placed { s with machine := m, outbox := ob } o t := by
  cases next with
  | ended => cases h
  | jitter wakeAt =>
      cases h
      trivial
  | sends work policy fits joined timed =>
      cases h
      refine ⟨fits, le_rfl, fun mine ended => ?_, timed, fun n g calling => by cases calling⟩
      have := joined mine
      simp [this] at ended

theorem Wired.resume (w : Wired s) {g : Segment} (r : Runs o s.machine s.outbox g) :
    Wired (s.resume o g) := by
  have core : Wired ({ s with machine := g.machine, outbox := g.outbox }.setTask o g.task) := by
    refine ⟨w.fresh, fun o' t ht => ?_, fun o₁ o₂ send₁ send₂ h₁ h₂ ne kind => ?_⟩
    · simp only [System.setTask] at ht
      split_ifs at ht with mine
      · rw [mine]
        exact placed_of_next r.next t ht
      · exact (w.placed o' t ht).advance mine r
    · have newer : ∀ send o' send', g.task = some (.sending send) → o' ≠ o →
          s.tasks o' = some (.sending send') → send.work.kind = send'.work.kind →
          Apart send send' := by
        intro send o' send' hg ne' ho' kind'
        obtain ⟨-, bound, -⟩ := w.placed o' _ ho'
        have next := r.next
        rw [hg] at next
        generalize g.outbox = ob at next
        cases next with
        | sends work policy fits joined timed =>
            refine ⟨?_, fun n g _ _ calling => by cases calling⟩
            simp only [Outbox.beginSend, Outbox.slot_update_self, Slot.register_generation]
            rw [← kind'] at bound
            simp only at bound
            omega
      simp only [System.setTask] at h₁ h₂
      split_ifs at h₁ h₂ with mine₁ mine₂ mine₂
      · exact absurd (mine₁.trans mine₂.symm) ne
      · exact newer send₁ o₂ send₂ h₁ mine₂ h₂ kind
      · exact (newer send₂ o₁ send₁ h₂ mine₁ h₁ kind.symm).symm
      · exact w.apart o₁ o₂ send₁ send₂ h₁ h₂ ne kind
  unfold System.resume
  dsimp only
  cases spawned : g.spawned with
  | none => exact core
  | some id => exact core.setTask_created _ ⟨rfl, (r.spawned (by simp [spawned])).2⟩

/-- What holds of a send of `o` wherever it stands. -/
structure Registered (s : System) (o : Owner) (send : Send) : Prop where
  fits : WorkFits o s.machine.state send.work
  bound : send.generation ≤ (s.outbox.slot send.work.kind).generation
  closed : ofJoined send.work = true → s.machine.state = .leaving ∨ s.machine.state = .left →
    (s.outbox.slot send.work.kind).ended send.generation = some .cancelled
  timed : send.policy.deadline.isSome = true → ofJoin send.work = true
  distinct : ∀ o' send', o' ≠ o → s.tasks o' = some (.sending send') →
    send.work.kind = send'.work.kind → send.generation ≠ send'.generation

theorem Wired.registered (w : Wired s) {send : Send} (held : s.tasks o = some (.sending send)) :
    Registered s o send := by
  obtain ⟨fits, bound, closed, timed, -⟩ := w.placed o _ held
  exact ⟨fits, bound, closed, timed, fun o' send' ne ho' kind =>
    (w.apart o o' send send' held ho' ne.symm kind).distinct⟩

theorem resume_sending {o' : Owner} {g : Segment} {send : Send}
    (held : (s.resume o g).tasks o' = some (.sending send)) :
    (o' = o ∧ g.task = some (.sending send)) ∨ (o' ≠ o ∧ s.tasks o' = some (.sending send)) := by
  have plain : (if o' = o then g.task else s.tasks o') = some (.sending send) := by
    unfold System.resume at held
    cases spawned : g.spawned with
    | none => simpa [spawned] using held
    | some id =>
        by_cases detached : o' = .detached
        · simp [spawned, detached] at held
        · simpa [spawned, detached] using held
  split_ifs at plain with mine
  · exact Or.inl ⟨mine, plain⟩
  · exact Or.inr ⟨mine, plain⟩

theorem setTask_resume (task : Option Task) (g : Segment) :
    (s.setTask o task).resume o g = s.resume o g := by
  have tasks : ∀ o', (if o' = o then g.task else if o' = o then task else s.tasks o') =
      if o' = o then g.task else s.tasks o' := by
    intro o'
    by_cases h : o' = o <;> simp [h]
  simp only [System.resume, System.setTask, tasks]

theorem setTask_setTask (task task' : Option Task) :
    (s.setTask o task).setTask o task' = s.setTask o task' := by
  have tasks : ∀ o', (if o' = o then task' else if o' = o then task else s.tasks o') =
      if o' = o then task' else s.tasks o' := by
    intro o'
    by_cases h : o' = o <;> simp [h]
  simp only [System.setTask, tasks]

@[simp] theorem release_generation {kind kind' : SendKind} :
    ((s.release kind).outbox.slot kind').generation = (s.outbox.slot kind').generation := by
  cases kind <;> cases kind' <;> rfl

@[simp] theorem release_ended {kind kind' : SendKind} {generation : ℕ} :
    ((s.release kind).outbox.slot kind').ended generation =
      (s.outbox.slot kind').ended generation :=
  Outbox.ended_update_inFlight ..

theorem Registered.release {send : Send} {kind : SendKind} (r : Registered s o send) :
    Registered (s.release kind) o send :=
  ⟨r.fits, by simpa using r.bound, by simpa using r.closed, r.timed, r.distinct⟩

theorem release_inFlight_ne {kind kind' : SendKind} (h : kind' ≠ kind) :
    ((s.release kind).outbox.slot kind').inFlight = (s.outbox.slot kind').inFlight := by
  cases kind <;> cases kind' <;> first | rfl | exact absurd rfl h

/-- The attempt of `o` is over and nobody else's was under way in its slot. -/
theorem Wired.vacate (w : Wired s) {send : Send} {n g : ℕ}
    (held : s.tasks o = some (.sending send)) (calling : send.phase = .calling n g) :
    Wired ((s.release send.work.kind).setTask o none) := by
  refine ⟨w.fresh, fun o' t ht => ?_, fun o₁ o₂ send₁ send₂ h₁ h₂ ne kind => ?_⟩
  · simp only [System.setTask] at ht
    split_ifs at ht with mine
    have placed := w.placed o' t ht
    cases t with
    | created operation => exact placed
    | jitter wakeAt => trivial
    | sending other =>
        obtain ⟨fits, bound, closed, timed, flight⟩ := placed
        refine ⟨fits, by simpa [System.setTask] using bound,
          by simpa [System.setTask] using closed, timed, fun k g' calling' => ?_⟩
        obtain ⟨inFlight, call⟩ := flight k g' calling'
        refine ⟨?_, call⟩
        by_cases kind : other.work.kind = send.work.kind
        · exact absurd calling'
            ((w.apart o o' send other held ht (Ne.symm mine) kind.symm).sole n g k g' calling)
        · exact (release_inFlight_ne kind).trans inFlight
  · simp only [System.setTask] at h₁ h₂
    split_ifs at h₁ h₂ with mine₁ mine₂
    exact w.apart o₁ o₂ send₁ send₂ h₁ h₂ ne kind

/-- After its attempt a send is settled, or waits for a retry. -/
theorem wired_endAttempt {send : Send} {outcome : AttemptOutcome}
    (vacated : Wired ((s.release send.work.kind).setTask o none)) (r : Registered s o send) :
    Wired (s.endAttempt o send outcome) := by
  have settled : ∀ result, Wired ((s.release send.work.kind).settleSend o send result) := by
    intro result
    rw [System.settleSend, ← setTask_resume none]
    exact vacated.resume (runs_settle r.fits)
  unfold System.endAttempt
  dsimp only
  cases ((s.release send.work.kind).outbox.slot send.work.kind).ended send.generation with
  | some failure => exact settled _
  | none =>
      dsimp only
      cases judge send.policy send.backoff (s.release send.work.kind).now send.last outcome with
      | done result => exact settled result
      | retry delay last =>
          dsimp only
          rw [← setTask_setTask none]
          refine vacated.setTask (fun t h => ?_) fun send' h o' other ne ho' kind => ?_
          · cases h
            exact ⟨r.fits, by simpa [System.setTask] using r.bound,
              by simpa [System.setTask] using r.closed, r.timed,
              fun n g calling => by cases calling⟩
          · cases h
            simp only [System.setTask, ne, if_false] at ho'
            exact ⟨r.distinct o' other ne ho' kind, fun n g _ _ calling => by cases calling⟩

theorem Wired.drop (w : Wired s) : Wired (s.drop o) := by
  unfold System.drop
  cases held : s.tasks o with
  | none => exact w.setTask_none
  | some task =>
      cases task with
      | created operation => exact w.setTask_none
      | jitter wakeAt => exact w.setTask_none
      | sending send =>
          have freed : Wired { s with machine := s.machine.free send.work.busy } :=
            w.touch (free_state _ _)
          dsimp only
          cases phase : send.phase with
          | calling n g => exact freed.vacate held phase
          | waiting | checked | backingOff => exact freed.setTask_none

theorem Wired.stopUpkeep (w : Wired s) : Wired s.stopUpkeep := by
  have dropped := w.drop (o := .restart) |>.drop (o := .refresh) |>.drop (o := .recover)
    |>.drop (o := .republish) |>.drop (o := .departure)
  exact ⟨dropped.fresh, dropped.placed, dropped.apart⟩

theorem Wired.startIfIdle (w : Wired s) (operation : Operation)
    (fits : OperationFits o s.machine.state operation) : Wired (s.startIfIdle o operation) := by
  unfold System.startIfIdle
  split_ifs
  · exact w.setTask_created operation fits
  · exact w

theorem Wired.beat (w : Wired s) : Wired s.beat := by
  unfold System.beat
  dsimp only
  split_ifs
  · exact w.stopUpkeep
  · exact (w.drop.setTask_created (.restart true .nothing) trivial).startIfIdle .refresh trivial
  · exact w.startIfIdle .refresh trivial

/-- An attempt starts only in a slot nobody holds. -/
theorem Wired.take (w : Wired s) {send : Send} (held : s.tasks o = some (.sending send))
    (free : (s.outbox.slot send.work.kind).inFlight = false) : Wired (s.take o send) := by
  rw [System.take, if_neg (by simp [free])]
  have idle : ∀ o' send' n g, s.tasks o' = some (.sending send') →
      send'.work.kind = send.work.kind → send'.phase ≠ .calling n g := by
    intro o' send' n g ho' kind calling
    obtain ⟨-, -, -, -, flight⟩ := w.placed o' _ ho'
    rw [kind] at flight
    exact Bool.false_ne_true (free.symm.trans (flight n g calling).1)
  obtain ⟨fits, bound, closed, timed, -⟩ := w.placed o _ held
  refine ⟨fun n hn => ?_, fun o' t ht => ?_, fun o₁ o₂ send₁ send₂ h₁ h₂ ne kind => ?_⟩
  · have : n ≠ s.nextCall := by
      simp only [System.setTask] at hn
      omega
    simp only [System.setTask, this, if_false]
    exact w.fresh n (by simp only [System.setTask] at hn; omega)
  · simp only [System.setTask] at ht
    split_ifs at ht with mine
    · cases ht
      refine ⟨by rw [mine]; exact fits, by simpa [System.setTask] using bound,
        by simpa [System.setTask] using closed, timed, fun n g calling => ?_⟩
      cases calling
      refine ⟨by simp [System.setTask], ⟨send.work.request, o, s.now, none⟩, ?_, mine.symm, rfl,
        rfl, ?_⟩
      · simp [System.setTask]
      · exact send.policy.budget_full_or_overdue s.now
    · have placed := w.placed o' t ht
      cases t with
      | created operation => exact placed
      | jitter wakeAt => trivial
      | sending other =>
          obtain ⟨fits', bound', closed', timed', flight'⟩ := placed
          by_cases kind : other.work.kind = send.work.kind
          · refine ⟨fits', ?_, ?_, timed', fun n g calling =>
              absurd calling (idle o' other n g ht kind)⟩
            · simpa [System.setTask, kind] using bound'
            · simpa [System.setTask, kind] using closed'
          · refine ⟨fits', ?_, ?_, timed', fun n g calling => ?_⟩
            · simpa [System.setTask, Outbox.slot_update_ne kind] using bound'
            · simpa [System.setTask, Outbox.slot_update_ne kind] using closed'
            simp only [System.setTask, Outbox.slot_update_ne kind]
            obtain ⟨inFlight, call, hcall, rest⟩ := flight' n g calling
            refine ⟨inFlight, call, ?_, rest⟩
            have older : n ≠ s.nextCall := by
              rintro rfl
              exact absurd hcall (by simp [w.fresh s.nextCall le_rfl])
            simpa [older] using hcall
  · simp only [System.setTask] at h₁ h₂
    split_ifs at h₁ h₂ with mine₁ mine₂ mine₂
    · exact absurd (mine₁.trans mine₂.symm) ne
    · cases h₁
      have apart := w.apart o o₂ send send₂ held h₂ (Ne.symm mine₂) kind
      exact ⟨apart.distinct, fun n g n' g' _ => idle o₂ send₂ n' g' h₂ kind.symm⟩
    · cases h₂
      have apart := w.apart o₁ o send₁ send h₁ held mine₁ kind
      exact ⟨apart.distinct, fun n g n' g' calling =>
        absurd calling (idle o₁ send₁ n g h₁ kind)⟩
    · exact w.apart o₁ o₂ send₁ send₂ h₁ h₂ ne kind

/-- An answer to a call nobody waits for. -/
theorem Wired.recordAnswer (w : Wired s) {n : ℕ} {call : HostCall}
    {result : Except CommandError String} (listed : s.calls n = some call)
    (unheard : ∀ o send g, s.tasks o = some (.sending send) → send.phase ≠ .calling n g) :
    Wired (s.recordAnswer n call result) := by
  refine ⟨fun k hk => ?_, fun o' t ht => ?_, w.apart⟩
  · have : k ≠ n := by
      rintro rfl
      exact absurd listed (by simp [w.fresh k hk])
    simpa [System.recordAnswer, this] using w.fresh k hk
  · have placed := w.placed o' t ht
    cases t with
    | created operation => exact placed
    | jitter wakeAt => trivial
    | sending send =>
        obtain ⟨fits, bound, closed, timed, flight⟩ := placed
        refine ⟨fits, bound, closed, timed, fun k g calling => ?_⟩
        obtain ⟨inFlight, made⟩ := flight k g calling
        refine ⟨inFlight, ?_⟩
        have other : k ≠ n := by
          rintro rfl
          exact unheard o' send g ht calling
        simpa [System.recordAnswer, other] using made

theorem Wired.vacate_answered (w : Wired s) {n g : ℕ} {call : HostCall}
    {result : Except CommandError String} {send : Send} (listed : s.calls n = some call)
    (held : s.tasks call.caller = some (.sending send)) (calling : send.phase = .calling n g) :
    Wired (((s.recordAnswer n call result).release send.work.kind).setTask call.caller none) := by
  refine (w.vacate held calling).recordAnswer listed fun o send' g' ho calling' => ?_
  simp only [System.setTask_tasks] at ho
  split_ifs at ho with mine
  obtain ⟨-, call', listed', caller, -⟩ := (w.placed o _ ho).flight n g' calling'
  rw [listed] at listed'
  cases listed'
  exact mine caller.symm

theorem Wired.answer (w : Wired s) {n : ℕ} {call : HostCall}
    {result : Except CommandError String} (listed : s.calls n = some call) :
    Wired (s.answer n call result) := by
  have step := s.answerStep n call result
  generalize s.answer n call result = t at step ⊢
  cases step with
  | unheard away =>
      refine w.recordAnswer listed fun o send g ho calling => ?_
      obtain ⟨-, call', listed', caller, -⟩ := (w.placed o _ ho).flight n g calling
      rw [listed] at listed'
      cases listed'
      rw [← caller] at ho
      exact away send g ho calling
  | heard send giveUpAt held calling =>
      have r := w.registered held
      exact wired_endAttempt (w.vacate_answered listed held calling)
        ⟨r.fits, r.bound, r.closed, r.timed, r.distinct⟩

/-- The leave begun of a joined machine: every send of the join has ended. -/
theorem Wired.beginLeave (w : Wired s) (joined : s.machine.state = .joined) :
    Wired s.beginLeave := by
  have begun : s.beginLeave = { s with
      machine := ({ s.machine with state := .leaving } : OwnMembershipMachine).updateLapsed s.now
      outbox := s.outbox.cancelScope } := by
    simp [System.beginLeave, OwnMembership.beginLeave, joined]
  rw [begun]
  refine ⟨w.fresh, fun o' t ht => ?_, w.apart⟩
  have placed := w.placed o' t ht
  cases t with
  | created operation =>
      cases operation with
      | cancelArmed id =>
          simp only [Placed, OperationFits, joined] at placed
          cases placed.2
      | restart | refresh | recover | recoverDeparture | republish => trivial
  | jitter wakeAt => trivial
  | sending send =>
      obtain ⟨fits, bound, -, timed, flight⟩ := placed
      refine ⟨?_, ?_, fun _ _ => ?_, timed, fun n g calling => ?_⟩
      · cases hw : send.work <;> simp_all [WorkFits, OwnMembershipMachine.updateLapsed]
      · simp only [Outbox.slot_cancelScope, Slot.cancel_generation]
        omega
      · simp only [Outbox.slot_cancelScope]
        exact Slot.ended_cancel bound
      · simpa using flight n g calling

theorem resume_leave (reason : Option LeaveReason) :
    s.resume .leave (leave s.machine s.outbox s.now reason) =
      s.beginLeave.resume .leave (startSend s.beginLeave.machine s.beginLeave.outbox
        (.leave (reason.getD ⟨.leave, none⟩)) .single) := rfl

theorem beginLeave_left (h : s.machine.state = .leaving) : s.beginLeave = s := by
  simp [System.beginLeave, OwnMembership.beginLeave, h]

theorem beginLeave_state (h : s.machine.state = .joined ∨ s.machine.state = .leaving) :
    s.beginLeave.machine.state = .leaving := by
  obtain h | h := h <;>
    simp [System.beginLeave, OwnMembership.beginLeave, OwnMembershipMachine.updateLapsed, h]

theorem Wired.leave (w : Wired s) (h : s.machine.state = .joined ∨ s.machine.state = .leaving)
    (reason : Option LeaveReason) :
    Wired (s.resume .leave (OwnMembership.leave s.machine s.outbox s.now reason)) := by
  rw [resume_leave]
  have begun : Wired s.beginLeave := by
    obtain joined | leaving := h
    · exact w.beginLeave joined
    · rw [beginLeave_left leaving]
      exact w
  exact begun.resume (runs_startSend (.same _) ⟨rfl, Or.inl (beginLeave_state h)⟩
    (by simp [ofJoined]) (by simp [SendPolicy.single]))

theorem wired_taskStep {t : System} {event : TaskEvent} (w : Wired s)
    (step : System.TaskStep s o event t) : Wired t := by
  cases step with
  | polled operation held => exact w.resume (runs_startOperation (w.placed o _ held))
  | waited wakeAt held => exact w.resume runs_recoverNow
  | moved event send phase held before after => exact w.setTask_phase held rfl rfl rfl after
  | failed event send failure held before reason =>
      exact w.resume (runs_settle (w.registered held).fits)
  | started send held checked idle => exact w.take held idle
  | timedOut send n giveUpAt held calling late =>
      exact wired_endAttempt (w.vacate held calling) (w.registered held)

theorem Wired.online (w : Wired s) :
    Wired { s with outbox := { s.outbox with onlineEpoch := s.outbox.onlineEpoch + 1 } } := by
  refine ⟨w.fresh, fun o task ht => ?_, w.apart⟩
  cases task with
  | created operation => exact w.placed o _ ht
  | jitter wakeAt => trivial
  | sending send =>
      obtain ⟨fits, bound, closed, timed, flight⟩ := w.placed o _ ht
      cases kind : send.work.kind <;> rw [kind] at bound closed flight <;>
        exact ⟨fits, by rw [kind]; exact bound, by rw [kind]; exact closed, timed,
          by rw [kind]; exact flight⟩

/-- One step keeps the invariant. -/
theorem wired_step {t : System} {a : Action} (w : Wired s) (h : s.step a = some t) : Wired t := by
  cases System.actionStep h with
  | tick | spawnUpkeep => exact ⟨w.fresh, w.placed, w.apart⟩
  | online => exact w.online
  | beat => exact w.beat
  | lapseCheck => exact w.touch rfl
  | recovered => exact w.startIfIdle _ trivial
  | wakeDeparture =>
      have touched : Wired { s with machine := { s.machine with departed := false } } := w.touch rfl
      exact touched.startIfIdle _ trivial
  | wakeRepublish =>
      have touched : Wired { s with machine := { s.machine with republishRequested := false } } :=
        w.touch rfl
      exact touched.startIfIdle _ trivial
  | task o event t step => exact wired_taskStep w step
  | answer n call result listed => exact w.answer listed
  | ownDeparture reason =>
      obtain ⟨departed, same⟩ := s.machine.onOwnDeparture_flags reason
      exact w.touch (by rw [same])
  | catchUp own =>
      obtain ⟨awaiting, requested, same⟩ := s.machine.onCatchUp_flags own
      exact w.touch (by rw [same])
  | moveTransports => exact w.resume runs_republishTransports
  | beginLeave joined => exact w.beginLeave joined
  | leave reason begun => exact w.leave begun reason
  | dropFuture => exact w.drop
  | abortUpkeep => exact w.stopUpkeep

/-- What a step does to the calls at the host and the clock: it starts a call, has one
answered, or leaves the calls alone. -/
inductive HostStep (s : System) : Action → System → Prop
  | starts (o : Owner) (send : Send) (held : s.tasks o = some (.sending send))
      (checked : send.phase = .checked)
      (idle : (s.outbox.slot send.work.kind).inFlight = false) :
      HostStep s (.task o .take) (s.take o send)
  | answers (n : ℕ) (call : HostCall) (result : Except CommandError String)
      (listed : s.calls n = some call) (unanswered : call.answer = none) :
      HostStep s (.answer n result) (s.answer n call result)
  | quiet (a : Action) (t : System) (calls : t.calls = s.calls) (next : t.nextCall = s.nextCall)
      (now : s.now ≤ t.now) : HostStep s a t

theorem HostStep.of_host {t : System} {a : Action} (same : t.host = s.host) : HostStep s a t := by
  simp only [System.host, Prod.mk.injEq] at same
  exact .quiet a t same.1 same.2.1 same.2.2.ge

theorem hostStep_taskStep {t : System} {event : TaskEvent} (step : System.TaskStep s o event t) :
    HostStep s (.task o event) t := by
  cases step with
  | polled | waited => exact .of_host System.resume_host
  | moved => exact .of_host System.setTask_host
  | failed => exact .of_host System.settleSend_host
  | started send held checked idle => exact .starts o send held checked idle
  | timedOut => exact .of_host System.endAttempt_host

theorem hostStep {t : System} {a : Action} (h : s.step a = some t) : HostStep s a t := by
  cases System.actionStep h with
  | tick => exact .quiet _ _ rfl rfl (Nat.le_add_right _ _)
  | answer n call result listed unanswered => exact .answers n call result listed unanswered
  | task o event t step => exact hostStep_taskStep step
  | online | ownDeparture | catchUp | spawnUpkeep | lapseCheck | beginLeave =>
      exact .of_host rfl
  | beat => exact .of_host System.beat_host
  | recovered | wakeDeparture | wakeRepublish => exact .of_host System.startIfIdle_host
  | moveTransports | leave => exact .of_host System.resume_host
  | dropFuture => exact .of_host System.drop_host
  | abortUpkeep => exact .of_host System.stopUpkeep_host

end

/-- A machine that has begun to join and has not sent anything. -/
def beforeJoin (timings : MembershipTimings) (now : UInt64) : System :=
  { machine := { OwnMembershipMachine.new timings with state := .joining }
    outbox := .new
    tasks := fun _ => none
    calls := fun _ => none
    nextCall := 0
    now := now.toNat
    upkeep := false }

theorem wired_beforeJoin (timings : MembershipTimings) (now : UInt64) :
    Wired (beforeJoin timings now) :=
  ⟨fun _ _ => rfl, fun _ _ h => (by cases h), fun _ _ _ _ h => by cases h⟩

theorem runs_join (timings : MembershipTimings) (transports : MemberTransports) (deadline : ℕ)
    (now : UInt64) : Runs .join (beforeJoin timings now).machine (beforeJoin timings now).outbox
      (join (.new timings) .new now.toNat transports deadline) :=
  runs_startSend (.same _) (by exact ⟨rfl, rfl⟩) (by simp [ofJoined]) fun _ => rfl

theorem wired_start (timings : MembershipTimings) (transports : MemberTransports) (deadline : ℕ)
    (now : UInt64) : Wired (.start timings transports deadline now) :=
  (wired_beforeJoin timings now).resume (runs_join timings transports deadline now)

theorem wired_run {timings : MembershipTimings} {transports : MemberTransports} {deadline : ℕ}
    {now : UInt64} {trace : List Action} {s : System}
    (h : run System.step (.start timings transports deadline now) trace = some s) : Wired s :=
  run_invariant_of_step (fun _ _ _ w step => wired_step w step)
    (wired_start timings transports deadline now) h

end MatrixRtc.UpkeepInvariants

import MatrixRtc.UpkeepInvariants

/-!
# The leave is the last word

A leave's call waits for its slot, so it starts after the refresh or republish that
is at the host has been answered or has timed out. What it cannot wait for is a call
whose operation was dropped. The upkeep drops what it holds at the first beat that
finds the machine no longer joined, and again a restart that is overdue, and a
claim of a slot may start a send that was cancelled between its two halves. The order
holds in the runs where none of these meets a join's content.
-/
namespace MatrixRtc.LeaveOrder
open HostAnswers MemberEvents Outboxes OwnMembership MembershipUpkeep OperationSegments
open UpkeepInvariants StepRuns

/-- A member event of ours with the content of a join. -/
def publishesJoin : Request → Bool
  | .sendStickyEvent (.join _) => true
  | _ => false

def publishesLeave : Request → Bool
  | .sendStickyEvent (.leave _) => true
  | _ => false

/-- The operation of `o` has a join's content at the host. -/
def publishing (s : System) (o : Owner) : Bool :=
  match s.tasks o with
  | some (.sending send) =>
      match send.phase with
      | .calling _ _ => publishesJoin send.work.request
      | _ => false
  | _ => false

def upkeepOwners : List Owner := [.restart, .refresh, .recover, .republish, .departure]

/-- The membership send of `o` was cancelled after the first half of its claim. -/
def cancelledInClaim (s : System) (o : Owner) : Bool :=
  match s.tasks o with
  | some (.sending send) =>
      send.work.kind = .membership ∧
        (s.outbox.slot .membership).ended send.generation = some .cancelled
  | _ => false

/-- The step drops no operation that has a join's content at the host, other than a
join given up by the application, and starts no cancelled send. -/
def orderly (s : System) : Action → Bool
  | .beat =>
      if s.machine.state = .joined then
        !(s.machine.delayedLeaveOverdue s.now && publishing s .restart)
      else upkeepOwners.all fun o => !publishing s o
  | .abortUpkeep => upkeepOwners.all fun o => !publishing s o
  | .dropFuture o => o = .join && s.machine.state = .joining || !publishing s o
  | .task o .take => !cancelledInClaim s o
  | _ => true

/-- The call a step starts. -/
def startedCall (s t : System) : Option HostCall :=
  if t.nextCall = s.nextCall then none else t.calls s.nextCall

/-- Call `n` has a join's content and an operation that waits for its answer. -/
def AtHost (s : System) (n : ℕ) : Prop :=
  ∃ o send giveUpAt, s.tasks o = some (.sending send) ∧ send.phase = .calling n giveUpAt ∧
    publishesJoin send.work.request = true

/-- The join has failed or was given up, and no leave can follow. -/
def Gone (s : System) : Prop :=
  s.machine.state = .notJoined ∨ s.machine.state = .joining ∧ s.tasks .join = none

/-- Call `n` may land late: a join's content, recent and not answered. -/
def MayLand (s : System) (n : ℕ) : Prop :=
  ∃ call, s.calls n = some call ∧ publishesJoin call.request = true ∧ call.answer = none ∧
    s.now < call.startedAt + attemptTimeout

/-- What may land late is still waited for, or no leave can follow. -/
def Awaited (s : System) : Prop := ∀ n, MayLand s n → Gone s ∨ AtHost s n

theorem MayLand.congr {s t : System} {n : ℕ} (h : MayLand t n) (same : t.host = s.host) :
    MayLand s n := by
  simp only [System.host, Prod.mk.injEq] at same
  obtain ⟨calls, -, now⟩ := same
  simpa only [MayLand, calls, now] using h

/-- A step that starts and answers no call loses neither what is waited for nor the
end of the join. -/
structure Onward (s t : System) (n : ℕ) : Prop where
  gone : Gone s → Gone t
  kept : AtHost s n → Gone t ∨ AtHost t n

theorem Onward.refl (s : System) (n : ℕ) : Onward s s n := ⟨id, Or.inr⟩

theorem Onward.trans {s t u : System} {n : ℕ} (first : Onward s t n) (then_ : Onward t u n) :
    Onward s u n :=
  ⟨then_.gone ∘ first.gone, fun h => (first.kept h).elim (Or.inl ∘ then_.gone) then_.kept⟩

theorem Awaited.step {s t : System} (before : Awaited s)
    (step : ∀ n, MayLand t n → Gone t ∨ AtHost t n ∨ MayLand s n ∧ Onward s t n) : Awaited t := by
  intro n open_
  obtain gone | there | ⟨open_, onward⟩ := step n open_
  · exact Or.inl gone
  · exact Or.inr there
  · exact (before n open_).elim (Or.inl ∘ onward.gone) onward.kept

section
variable {s t : System} {o : Owner} {n : ℕ}

/-- The operation of `o` does not wait for call `n` with a join's content. -/
def Clear (s : System) (o : Owner) (n : ℕ) : Prop :=
  ∀ send giveUpAt, s.tasks o = some (.sending send) → send.phase = .calling n giveUpAt →
    publishesJoin send.work.request = false

theorem clear_of_quiet (quiet : publishing s o = false) : Clear s o n := by
  intro send giveUpAt held calling
  simpa [publishing, held, calling] using quiet

theorem clear_of_away {task : Option Task} (held : s.tasks o = task)
    (away : ∀ send giveUpAt, task = some (.sending send) → send.phase ≠ .calling n giveUpAt) :
    Clear s o n :=
  fun send giveUpAt held' calling => absurd calling (away send giveUpAt (held.symm.trans held'))

/-- Only the other operations are as they were, and the machine ran a segment of `o`. -/
theorem onward_of_advance (advance : Advance o s.machine.state t.machine.state)
    (tasks : ∀ o', o' ≠ o → t.tasks o' = s.tasks o') (own : o = .join → (s.tasks .join).isSome)
    (clear : Clear s o n) : Onward s t n := by
  refine ⟨fun gone => ?_, fun ⟨o', send, giveUpAt, held, calling, content⟩ => Or.inr ?_⟩
  · obtain ended | ⟨joining, none_⟩ := gone
    · exact Or.inl (advance.notJoined ended)
    · have other : o ≠ .join := fun mine => by simpa [none_] using own mine
      refine Or.inr ⟨?_, (tasks .join other.symm).trans none_⟩
      rw [joining] at advance
      generalize t.machine.state = after at advance
      cases advance with
      | same => rfl
      | joined mine | failed mine => exact absurd mine other
  · refine ⟨o', send, giveUpAt, (tasks o' ?_).trans held, calling, content⟩
    rintro rfl
    exact absurd content (by simp [clear send giveUpAt held calling])

theorem onward_setTask {task : Option Task} (own : o = .join → (s.tasks .join).isSome)
    (clear : Clear s o n) : Onward s (s.setTask o task) n :=
  onward_of_advance (.same _) (fun o' ne => by simp [ne]) own clear

theorem onward_resume {g : Segment} (r : Runs o s.machine s.outbox g)
    (own : o = .join → (s.tasks .join).isSome) (clear : Clear s o n) :
    Onward s (s.resume o g) n := by
  cases spawned : g.spawned with
  | none =>
      refine onward_of_advance (by simpa using r.advance) (fun o' ne => ?_) own clear
      simp [System.resume_tasks spawned, ne]
  | some id =>
      have failed : Gone (s.resume o g) := Or.inl
        (by simpa using (r.spawned (by simp [spawned])).2)
      exact ⟨fun _ => failed, fun _ => Or.inl failed⟩

theorem onward_release {kind : SendKind} : Onward s (s.release kind) n := ⟨id, Or.inr⟩

theorem onward_endAttempt {send : Send} {outcome : AttemptOutcome}
    (fits : WorkFits o s.machine.state send.work) (own : o = .join → (s.tasks .join).isSome)
    (clear : Clear s o n) : Onward s (s.endAttempt o send outcome) n := by
  have settled : ∀ result,
      Onward s ((s.release send.work.kind).settleSend o send result) n := fun result =>
    onward_release.trans
      (onward_resume (s := s.release send.work.kind) (runs_settle fits) own clear)
  unfold System.endAttempt
  dsimp only
  split
  · exact settled _
  · split
    · exact settled _
    · exact onward_release.trans (onward_setTask (s := s.release send.work.kind) own clear)

/-- The join's own publish ends the join when its time is up. -/
theorem gone_endAttempt {send : Send} (content : publishesJoin send.work.request = true)
    (ofTheJoin : ofJoin send.work = true) (overdue : send.policy.overdue s.now = true) :
    Gone (s.endAttempt o send .elapsed) := by
  obtain ⟨generation, policy, backoff, last, work, phase⟩ := send
  cases work <;>
    simp only [ofJoin, Bool.false_eq_true, Work.request, publishesJoin] at ofTheJoin content
  rename_i published
  have failed : ∀ failure, Gone ((s.release .membership).settleSend o
      ⟨generation, policy, backoff, last, .join published, phase⟩ (.error failure)) := by
    intro failure
    refine Or.inl ?_
    simp [System.settleSend, settle, afterJoin]
  unfold System.endAttempt
  dsimp only
  split
  · exact failed _
  · have now : (s.release (Work.join published).kind).now = s.now := rfl
    simp only [judge, now, overdue, if_true]
    exact failed _

theorem onward_drop (quiet : publishing s o = false ∨ o = .join ∧ s.machine.state = .joining) :
    Onward s (s.drop o) n := by
  obtain quiet | ⟨rfl, joining⟩ := quiet
  · refine ⟨fun gone => ?_, fun ⟨o', send, giveUpAt, held, calling, content⟩ => Or.inr ?_⟩
    · refine gone.imp System.drop_state.trans
        fun ⟨joining, none_⟩ => ⟨System.drop_state.trans joining, ?_⟩
      rw [System.drop_tasks, none_, ite_self]
    · refine ⟨o', send, giveUpAt, ?_, calling, content⟩
      rw [System.drop_tasks, if_neg, held]
      rintro rfl
      exact absurd content (by simp [clear_of_quiet quiet send giveUpAt held calling])
  · have given : Gone (s.drop .join) :=
      Or.inr ⟨System.drop_state.trans joining, by simp [System.drop_tasks]⟩
    exact ⟨fun _ => given, fun _ => Or.inl given⟩

theorem onward_stopUpkeep (quiet : upkeepOwners.all (fun o => !publishing s o) = true) :
    Onward s s.stopUpkeep n := by
  refine ⟨fun gone => ?_, fun ⟨o, send, giveUpAt, held, calling, content⟩ => Or.inr ?_⟩
  · refine gone.imp System.stopUpkeep_state.trans fun ⟨joining, none_⟩ =>
      ⟨System.stopUpkeep_state.trans joining, ?_⟩
    rw [System.stopUpkeep_tasks, none_, ite_self]
  · refine ⟨o, send, giveUpAt, ?_, calling, content⟩
    rw [System.stopUpkeep_tasks, if_neg, held]
    intro upkeeps
    have busy : publishing s o = true := by simp [publishing, held, calling, content]
    simp only [upkeepOwners, List.all_cons, List.all_nil] at quiet
    cases o <;> simp_all [Owner.isUpkeep]

theorem onward_startIfIdle {operation : Operation} (own : o ≠ .join) :
    Onward s (s.startIfIdle o operation) n := by
  unfold System.startIfIdle
  split_ifs with idle
  · exact onward_setTask (fun mine => absurd mine own)
      (clear_of_away (Option.isNone_iff_eq_none.mp idle) fun _ _ h => by cases h)
  · exact .refl s n

theorem onward_beat (orderly : orderly s .beat = true) : Onward s s.beat n := by
  unfold System.beat
  split_ifs with left replaced
  · simp only [LeaveOrder.orderly, if_neg left] at orderly
    exact onward_stopUpkeep orderly
  · simp only [LeaveOrder.orderly, if_pos (not_not.mp left)] at orderly
    have quiet : publishing s .restart = false := by
      obtain idle | overdue := replaced
      · simp [publishing, Option.isNone_iff_eq_none.mp idle]
      · simpa [overdue] using orderly
    refine ((onward_drop (o := .restart) (Or.inl quiet)).trans ?_).trans
      (onward_startIfIdle (by simp))
    have dropped : (s.drop .restart).tasks .restart = none := by simp [System.drop_tasks]
    exact onward_setTask (by simp) (clear_of_away dropped fun _ _ h => by cases h)
  · exact onward_startIfIdle (by simp)

/-- What is at the host stays so where no operation that waits is touched. -/
theorem onward_taskStep {event : TaskEvent} (w : Wired s) (step : System.TaskStep s o event t)
    (open_ : MayLand s n) (same : t.host = s.host) : Gone t ∨ Onward s t n := by
  cases step with
  | polled operation held =>
      exact Or.inr (onward_resume (runs_startOperation (w.placed o _ held))
        (fun mine => by simp [← mine, held]) (clear_of_away held fun _ _ h => by cases h))
  | waited wakeAt held =>
      exact Or.inr (onward_resume runs_recoverNow (fun mine => by simp [← mine, held])
        (clear_of_away held fun _ _ h => by cases h))
  | moved event send phase held before after =>
      refine Or.inr (onward_setTask (fun mine => by simp [← mine, held]) (clear_of_away held ?_))
      rintro _ g ⟨⟩
      exact before n g
  | failed event send failure held before reason =>
      refine Or.inr (onward_resume (runs_settle (w.registered held).fits)
        (fun mine => by simp [← mine, held]) (clear_of_away held ?_))
      rintro _ g ⟨⟩
      exact before n g
  | started send held checked idle =>
      simp [System.take, idle, System.host, System.setTask] at same
  | timedOut send k giveUpAt held calling late =>
      have fits := (w.registered held).fits
      have own : o = .join → (s.tasks .join).isSome := fun mine => by simp [← mine, held]
      obtain ⟨call, listed, content, unanswered, recent⟩ := open_
      by_cases mine : k = n ∧ publishesJoin send.work.request = true
      · obtain ⟨rfl, published⟩ := mine
        obtain ⟨-, call', listed', -, -, -, waited⟩ := (w.placed o _ held).flight k giveUpAt calling
        rw [listed] at listed'
        cases listed'
        obtain full | overdue := waited
        · omega
        · have timed := (w.registered held).timed (SendPolicy.timed_of_overdue overdue)
          exact Or.inl (gone_endAttempt published timed (SendPolicy.overdue_mono late overdue))
      · refine Or.inr (onward_endAttempt fits own ?_)
        rintro send' g held' calling'
        rw [held] at held'
        cases held'
        rw [calling] at calling'
        cases calling'
        exact Bool.eq_false_iff.mpr fun published => mine ⟨rfl, published⟩

theorem onward_answer {k : ℕ} {call : HostCall} {result : Except CommandError String} (w : Wired s)
    (other : n ≠ k) : Onward s (s.answer k call result) n := by
  have recorded : Onward s (s.recordAnswer k call result) n := ⟨id, Or.inr⟩
  have step := s.answerStep k call result
  generalize s.answer k call result = t at step ⊢
  cases step with
  | unheard away => exact recorded
  | heard send giveUpAt held calling =>
      refine recorded.trans (onward_endAttempt (w.registered held).fits
        (fun mine => by rw [← mine]; simp [System.recordAnswer, held]) (clear_of_away held ?_))
      rintro _ g ⟨⟩
      simp [calling, other.symm]

theorem onward_of_tasks (state : t.machine.state = s.machine.state) (tasks : t.tasks = s.tasks) :
    Onward s t n := by
  refine ⟨fun gone => gone.imp state.trans fun ⟨joining, none_⟩ =>
    ⟨state.trans joining, tasks ▸ none_⟩, fun ⟨o, send, g, held, there⟩ =>
    Or.inr ⟨o, send, g, tasks ▸ held, there⟩⟩

theorem onward_beginLeave (begun : s.machine.state = .joined ∨ s.machine.state = .leaving) :
    Onward s s.beginLeave n := by
  refine ⟨fun gone => ?_, Or.inr⟩
  obtain ended | ⟨joining, -⟩ := gone
  · simp [ended] at begun
  · simp [joining] at begun

/-- An attempt that starts is waited for. -/
theorem awaited_take {send : Send} (before : Awaited s) (held : s.tasks o = some (.sending send))
    (checked : send.phase = .checked) (idle : (s.outbox.slot send.work.kind).inFlight = false) :
    Awaited (s.take o send) := by
  rw [System.take, if_neg (by simp [idle])]
  refine before.step ?_
  rintro n ⟨call, listed, content, unanswered, recent⟩
  refine Or.inr ?_
  simp only [System.setTask] at listed recent
  split_ifs at listed with new
  · cases listed
    exact Or.inl ⟨o, { send with phase := .calling s.nextCall (s.now + send.policy.budget s.now) },
      _, if_pos rfl, by rw [new], content⟩
  · refine Or.inr ⟨⟨call, listed, content, unanswered, recent⟩, ?_⟩
    refine onward_of_advance (.same _) (fun o' ne => if_neg ne) (fun mine => by simp [← mine, held])
      (clear_of_away held ?_)
    rintro _ g ⟨⟩
    simp [checked]

/-- What may land late is still waited for after an orderly step. -/
theorem awaited_step {a : Action} (w : Wired s) (before : Awaited s) (ok : orderly s a = true)
    (h : s.step a = some t) : Awaited t := by
  have quiet : (∀ n, MayLand t n → Gone t ∨ Onward s t n) → t.host = s.host → Awaited t := by
    intro onward same
    refine before.step fun n open_ => ?_
    have open_' := open_.congr same
    exact (onward n open_).imp_right fun onward => Or.inr ⟨open_', onward⟩
  cases System.actionStep h with
  | tick ms clock =>
      refine before.step ?_
      rintro n ⟨call, listed, content, unanswered, recent⟩
      have open_ : MayLand s n :=
        ⟨call, listed, content, unanswered, (Nat.le_add_right _ _).trans_lt recent⟩
      exact Or.inr (Or.inr ⟨open_, onward_of_tasks rfl rfl⟩)
  | online | spawnUpkeep | lapseCheck =>
      exact quiet (fun n _ => Or.inr (onward_of_tasks rfl rfl)) rfl
  | beat => exact quiet (fun n _ => Or.inr (onward_beat ok)) System.beat_host
  | recovered jitter =>
      exact quiet (fun n _ => Or.inr (onward_startIfIdle (by simp))) System.startIfIdle_host
  | wakeDeparture | wakeRepublish =>
      refine quiet (fun n _ => Or.inr ?_) System.startIfIdle_host
      refine Onward.trans ?_ (onward_startIfIdle (by simp))
      exact onward_of_tasks rfl rfl
  | task o event t step =>
      by_cases same : t.host = s.host
      · exact quiet (fun n open_ => onward_taskStep w step (open_.congr same) same) same
      · cases step with
        | polled | waited => exact absurd System.resume_host same
        | moved => exact absurd System.setTask_host same
        | failed => exact absurd System.settleSend_host same
        | timedOut => exact absurd System.endAttempt_host same
        | started send held checked idle => exact awaited_take before held checked idle
  | answer n call result listed unanswered_ =>
      refine before.step fun k open_ => Or.inr (Or.inr ?_)
      have recorded : MayLand (s.recordAnswer n call result) k :=
        open_.congr System.answer_host
      obtain ⟨call', listed', content, unanswered, recent⟩ := recorded
      simp only [System.recordAnswer] at listed' recent
      split_ifs at listed' with answered
      · cases listed'
        cases unanswered
      · exact ⟨⟨call', listed', content, unanswered, recent⟩, onward_answer w answered⟩
  | ownDeparture reason =>
      obtain ⟨departed, same⟩ := s.machine.onOwnDeparture_flags reason
      exact quiet (fun n _ => Or.inr (onward_of_tasks (by rw [same]) rfl)) rfl
  | catchUp own =>
      obtain ⟨awaiting, requested, same⟩ := s.machine.onCatchUp_flags own
      exact quiet (fun n _ => Or.inr (onward_of_tasks (by rw [same]) rfl)) rfl
  | moveTransports n transport idle =>
      refine quiet (fun n _ => Or.inr ?_) System.resume_host
      exact onward_resume runs_republishTransports (by simp)
        (clear_of_away idle fun _ _ h => by cases h)
  | beginLeave joined => exact quiet (fun n _ => Or.inr (onward_beginLeave (Or.inl joined))) rfl
  | leave reason begun idle =>
      refine quiet (fun n _ => Or.inr ?_) System.resume_host
      rw [resume_leave]
      refine (onward_beginLeave begun).trans (onward_resume ?_ (by simp)
        (clear_of_away idle fun _ _ h => by cases h))
      exact runs_startSend (.same _) ⟨rfl, Or.inl (beginLeave_state begun)⟩ (by simp [ofJoined])
        (by simp [SendPolicy.single])
  | dropFuture o own attached =>
      refine quiet (fun n _ => Or.inr (onward_drop ?_)) System.drop_host
      simp only [orderly, Bool.or_eq_true, Bool.and_eq_true, decide_eq_true_eq, Bool.not_eq_true']
        at ok
      exact ok.symm
  | abortUpkeep => exact quiet (fun n _ => Or.inr (onward_stopUpkeep ok)) System.stopUpkeep_host

theorem startedCall_take {a : Action} {call : HostCall} (h : s.step a = some t)
    (started : startedCall s t = some call) :
    ∃ o send, a = .task o .take ∧ s.tasks o = some (.sending send) ∧ send.phase = .checked ∧
      (s.outbox.slot send.work.kind).inFlight = false ∧
        call = ⟨send.work.request, o, s.now, none⟩ := by
  cases hostStep h with
  | starts o send held checked idle =>
      refine ⟨o, send, rfl, held, checked, idle, ?_⟩
      simp only [startedCall, System.take, idle, System.setTask, Bool.false_eq_true, if_false,
        if_true, Nat.succ_ne_self, Option.some.injEq] at started
      exact started.symm
  | answers n call' result listed unanswered =>
      have same : (s.answer n call' result).host = (s.recordAnswer n call' result).host :=
        System.answer_host
      have next := congrArg (fun host => host.2.1) same
      simp only [System.host, System.recordAnswer] at next
      simp [startedCall, next] at started
  | quiet a t calls next now => simp [startedCall, next] at started

theorem kind_of_publishesJoin {work : Work} (content : publishesJoin work.request = true) :
    work.kind = .membership := by
  cases work <;> first | rfl | cases content

theorem kind_of_publishesLeave {work : Work} (content : publishesLeave work.request = true) :
    work.kind = .membership ∧ ∃ reason, work = .leave reason := by
  cases work <;> first | exact ⟨rfl, _, rfl⟩ | cases content

theorem leave_starts_alone {send : Send} (w : Wired s) (waits : Awaited s)
    (held : s.tasks o = some (.sending send))
    (idle : (s.outbox.slot send.work.kind).inFlight = false)
    (leaves : publishesLeave send.work.request = true) : ¬ MayLand s n := by
  intro open_
  obtain ⟨kind, reason, hwork⟩ := kind_of_publishesLeave leaves
  have fits := (w.registered held).fits
  rw [hwork] at fits
  obtain gone | ⟨o', send', giveUpAt, held', calling, content⟩ := waits n open_
  · obtain ended | ⟨joining, -⟩ := gone
    · simp [WorkFits, ended] at fits
    · simp [WorkFits, joining] at fits
  · have busy := ((w.placed o' _ held').flight n giveUpAt calling).1
    rw [kind_of_publishesJoin content, ← kind, idle] at busy
    cases busy

theorem cancelled_of_leaving {send : Send} (w : Wired s) (held : s.tasks o = some (.sending send))
    (content : publishesJoin send.work.request = true)
    (leaving : s.machine.state = .leaving ∨ s.machine.state = .left) :
    cancelledInClaim s o = true := by
  obtain ⟨fits, -, closed, -⟩ := w.registered held
  have kind := kind_of_publishesJoin content
  have cancelled : (s.outbox.slot send.work.kind).ended send.generation = some .cancelled := by
    refine closed ?_ leaving
    cases hwork : send.work <;> simp_all [publishesJoin, Work.request, WorkFits, ofJoined]
  rw [kind] at cancelled
  simp [cancelledInClaim, held, kind, cancelled]

end

theorem awaited_start (timings : MembershipTimings) (transports : MemberTransports)
    (deadline : ℕ) (now : UInt64) : Awaited (.start timings transports deadline now) := by
  rintro n ⟨call, listed, -⟩
  have calls := congrArg Prod.fst (System.start_host timings transports deadline now)
  simp only [System.host] at calls
  rw [calls] at listed
  cases listed

/-- A leave is the last word, in runs that drop no operation with a join's content at
the host, other than a join given up by the application, and start no send cancelled
within its claim: when the leave's attempt starts, every earlier call of the join with
a join's content has been answered or is older than an attempt's timeout, and once a
leave has begun none starts. -/
theorem leave_is_last_word (timings : MembershipTimings) (transports : MemberTransports)
    (deadline : ℕ) (now : UInt64) (trace : List Action) (a : Action) (s t : System)
    (ok : Admissible System.step (fun s a => orderly s a = true)
      (.start timings transports deadline now) (trace ++ [a]))
    (reach : run System.step (.start timings transports deadline now) trace = some s)
    (hstep : s.step a = some t) (call : HostCall) (started : startedCall s t = some call) :
    (publishesLeave call.request = true → ∀ n earlier, s.calls n = some earlier →
      publishesJoin earlier.request = true → earlier.answer = none →
      earlier.startedAt + attemptTimeout ≤ s.now) ∧
    (s.machine.state = .leaving ∨ s.machine.state = .left →
      publishesJoin call.request = false) := by
  obtain ⟨orderly_, last⟩ := ok.append reach
  obtain ⟨w, waits⟩ : Wired s ∧ Awaited s :=
    run_invariant (I := fun s => Wired s ∧ Awaited s)
      (fun _ _ _ inv ok step => ⟨wired_step inv.1 step, awaited_step inv.1 inv.2 ok step⟩)
      ⟨wired_start timings transports deadline now, awaited_start timings transports deadline now⟩
      orderly_ reach
  obtain ⟨o, send, rfl, held, -, idle, made⟩ := startedCall_take hstep started
  have request : call.request = send.work.request := by rw [made]
  rw [request]
  refine ⟨fun leaves n earlier listed content unanswered => ?_, fun leaving => ?_⟩
  · by_contra recent
    exact leave_starts_alone w waits held idle leaves
      ⟨earlier, listed, content, unanswered, not_le.mp recent⟩
  · by_contra content
    have kept : cancelledInClaim s o = false := by simpa [orderly] using last.1
    rw [cancelled_of_leaving w held (by simpa using content) leaving] at kept
    cases kept

section Runs

/-- A refresh at the host twenty minutes after the join. -/
def refreshAtHost : List Action :=
  joinLands ++ [.tick 1200000, .beat, .task .refresh .poll] ++ attempt .refresh

/-- The refresh is answered, and the leave that waited for it starts. -/
theorem leave_waits_for_the_refresh :
    ∃ s ∈ run System.step (.start timings transports 10000 0)
        (refreshAtHost ++ [.leave none, .task .leave .check, .task .leave .take,
          .answer 2 (.ok "$refresh"), .task .leave .check]),
      ∃ t ∈ s.step (.task .leave .take), ∃ call ∈ startedCall s t,
        publishesLeave call.request = true ∧
        ∀ n earlier, s.calls n = some earlier → publishesJoin earlier.request = true →
          earlier.answer = none → earlier.startedAt + attemptTimeout ≤ s.now := by
  have reached : ∃ s ∈ run System.step (.start timings transports 10000 0)
        (refreshAtHost ++ [.leave none, .task .leave .check, .task .leave .take,
          .answer 2 (.ok "$refresh"), .task .leave .check]),
      ∃ t ∈ s.step (.task .leave .take), ∃ call ∈ startedCall s t,
        publishesLeave call.request = true := by decide
  obtain ⟨s, reach, t, hstep, call, started, leaves⟩ := reached
  exact ⟨s, reach, t, hstep, call, started, leaves, (leave_is_last_word timings transports 10000 0
    _ _ s t (by decide) reach hstep call started).1 leaves⟩

/-- The beat that finds the leave begun drops the refresh at the host, and the leave
starts while the call is recent and unanswered. -/
theorem leave_beside_a_dropped_refresh :
    ∃ s ∈ run System.step (.start timings transports 10000 0)
        (refreshAtHost ++ [.leave none, .beat, .task .leave .check]),
      ∃ t ∈ s.step (.task .leave .take), ∃ call ∈ startedCall s t,
        publishesLeave call.request = true ∧
        ∃ earlier ∈ s.calls 2, publishesJoin earlier.request = true ∧
          earlier.answer.isNone = true ∧ s.now < earlier.startedAt + attemptTimeout := by
  decide

end Runs

end MatrixRtc.LeaveOrder

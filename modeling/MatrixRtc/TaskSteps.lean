import MatrixRtc.OwnFocusMoves

/-!
# The steps of a pool and its tasks

A step lets time pass, answers a task, or is a call of the pool. Of a call it is said which
tasks are under way after it, and what it did about our own focus.
-/
namespace MatrixRtc.PoolTasks
open MemberEvents MediaTransports Tables MediaPools PoolFrames OwnFocus

/-- Two flights are the same task, which may have been cut short or answered since. -/
structure SameTask (f g : Flight) : Prop where
  task : g.task = f.task
  serial : g.serial = f.serial
  since : g.since = f.since
  tenure : g.tenure = f.tenure
  birth : g.birth = f.birth

theorem SameTask.refl (f : Flight) : SameTask f f := ⟨rfl, rfl, rfl, rfl, rfl⟩

/-- A call was made: the owner's, or that of a message of the tasks, with what is left of
the tasks and of the connections. -/
structure Called (s : System) (call : Call) (takeOver : Except TransportError Unit)
    (rest : List Flight) (lapsed : List (String × ℕ)) (t : System) : Prop where
  result : t = (s.called (s.pool.perform ⟨call, s.now, takeOver⟩) rest).lapse lapsed
  rest : ∀ f ∈ rest, ∃ g ∈ s.flights, SameTask g f
  may : allowed s.pool call ∨ ∃ message, call = .handle message

/-- A message is handled. -/
structure Delivered (s : System) (i : ℕ) (takeOver : Except TransportError Unit)
    (f : Flight) (message : Message) (t : System) : Prop where
  there : s.flights[i]? = some f
  sends : f.message s.now = some message
  called : Called s (.handle message) takeOver (s.cutShort message (s.flights.eraseIdx i))
    f.connection.toList t

/-- An event of a connection is handled. -/
structure Happened (s : System) (i : ℕ) (event : ConnectionEvent)
    (takeOver : Except TransportError Unit) (f : Flight) (connection : String × ℕ)
    (t : System) : Prop where
  there : s.flights[i]? = some f
  forwards : f.connection = some connection
  goes : connection ∉ s.over_
  called : Called s (.handle (.connection connection.1 connection.2 event)) takeOver s.flights
    (if isClosed event then [connection] else []) t

section
variable {s t : System}

theorem mem_cutShort {message : Message} {rest : List Flight} {f : Flight}
    (there : f ∈ s.cutShort message rest) : ∃ g ∈ rest, SameTask g f ∧ f.answer = g.answer ∧
      (f.cut = g.cut ∨ f.cut ∧ isRetry f.task) := by
  have kept (there : f ∈ rest) : ∃ g ∈ rest, SameTask g f ∧ f.answer = g.answer ∧
      (f.cut = g.cut ∨ f.cut ∧ isRetry f.task) := ⟨f, there, .refl f, rfl, .inl rfl⟩
  unfold System.cutShort at there
  split at there
  · split at there
    · obtain ⟨g, before, rfl⟩ := List.mem_map.mp there
      refine ⟨g, before, ?_⟩
      split_ifs with retry
      · exact ⟨⟨rfl, rfl, rfl, rfl, rfl⟩, rfl, .inr ⟨rfl, retry⟩⟩
      · exact ⟨.refl g, rfl, .inl rfl⟩
    · exact kept there
  · exact kept there

theorem cut_of_cutShort {epoch attempt : ℕ} {rest : List Flight} {f : Flight}
    (there : f ∈ s.cutShort (.ownBudget epoch) rest) (lasts : s.pool.lossStands epoch)
    (waits : s.pool.ownEntry.map ManagedConnection.state = some (.backoff attempt))
    (retry : isRetry f.task) : f.cut := by
  unfold System.cutShort at there
  dsimp only at there
  rw [lasts, waits] at there
  obtain ⟨g, -, rfl⟩ := List.mem_map.mp there
  split_ifs with was
  · rfl
  · rw [if_neg was] at retry
    exact absurd retry was

theorem serial_cutShort (message : Message) (rest : List Flight) :
    (s.cutShort message rest).map Flight.serial = rest.map Flight.serial := by
  unfold System.cutShort
  split
  · split
    · rw [List.map_map]
      refine List.map_congr_left fun f _ => ?_
      dsimp only [Function.comp_apply]
      split_ifs <;> rfl
    · rfl
  · rfl

/-- What a step may be. -/
theorem step_cases {a : Action} (h : step s a = some t) :
    (∃ ms, a = .tick ms ∧ t = { s with now := s.now + ms }) ∨
    (∃ i result f, a = .answer i result ∧ s.flights[i]? = some f ∧ f.asks ∧
      t = { s with flights := s.flights.set i { f with answer := some result } }) ∨
    (∃ call takeOver, a = .owner call takeOver ∧ allowed s.pool call ∧
      Called s call takeOver s.flights [] t) ∨
    (∃ i takeOver f message, a = .deliver i takeOver ∧ Delivered s i takeOver f message t) ∨
    ∃ i event takeOver f connection, a = .event i event takeOver ∧
      Happened s i event takeOver f connection t := by
  cases a with
  | tick ms =>
      cases h
      exact .inl ⟨ms, rfl, rfl⟩
  | owner call takeOver =>
      simp only [step] at h
      split_ifs at h with may
      cases h
      refine .inr (.inr (.inl ⟨call, takeOver, rfl, may, rfl, fun f there => ?_, .inl may⟩))
      exact ⟨f, there, .refl f⟩
  | answer i result =>
      simp only [step, Option.bind_eq_bind, Option.bind_eq_some_iff, Option.guard_eq_some',
        Option.pure_def] at h
      obtain ⟨f, there, -, asks, same⟩ := h
      cases same
      exact .inr (.inl ⟨i, result, f, rfl, there, asks, rfl⟩)
  | deliver i takeOver =>
      simp only [step, Option.bind_eq_bind, Option.bind_eq_some_iff, Option.pure_def] at h
      obtain ⟨f, there, message, sends, same⟩ := h
      cases same
      refine .inr (.inr (.inr (.inl ⟨i, takeOver, f, message, rfl, there, sends, rfl, ?_,
        .inr ⟨message, rfl⟩⟩)))
      intro g cut
      obtain ⟨before, left, same, -⟩ := mem_cutShort cut
      exact ⟨before, List.mem_of_mem_eraseIdx left, same⟩
  | event i event takeOver =>
      simp only [step, Option.bind_eq_bind, Option.bind_eq_some_iff, Option.guard_eq_some',
        Option.pure_def] at h
      obtain ⟨f, there, connection, is_connection, -, goes, same⟩ := h
      cases same
      refine .inr (.inr (.inr (.inr ⟨i, event, takeOver, f, connection, rfl, there,
        is_connection, goes, ?_, fun f there => ⟨f, there, .refl f⟩, .inr ⟨_, rfl⟩⟩)))
      split_ifs <;> rfl

theorem due_eq {f : Flight} {now delay : ℕ} {sent message : Message}
    (h : f.due now delay sent = some message) : f.since + delay ≤ now ∧ sent = message := by
  unfold Flight.due at h
  split_ifs at h with due
  exact ⟨due, Option.some.inj h⟩

theorem message_cases {f : Flight} {now : ℕ} {message : Message}
    (h : f.message now = some message) :
    (∃ key attempt result, f.task = .connect key attempt ∧ f.answer = some result ∧
      message = .connectFinished key attempt result) ∨
    (∃ connection attempt fresh result, f.task = .ownAttempt connection attempt fresh ∧
      f.answer = some result ∧ message = .ownConnectFinished attempt (result.map fun _ => ())) ∨
    (∃ key generation, f.task = .forward key generation ∧
      message = .connectionEnded key generation) ∨
    ∃ delay, f.since + delay ≤ now ∧
      ((∃ key attempt, f.task = .retryConnect key attempt delay ∧
          message = .retryConnect key attempt) ∨
        (∃ key generation, f.task = .closeIfIdle key generation delay ∧
          message = .closeIfIdle key generation) ∨
        (∃ memberId kind generation, f.task = .applyConstraints memberId kind generation delay ∧
          message = .applyConstraints memberId kind generation) ∨
        (∃ attempt, f.task = .ownRetry attempt delay ∧ message = .ownRetry attempt) ∨
        (∃ epoch, f.task = .ownBudget epoch delay ∧ message = .ownBudget epoch) ∨
        (∃ epoch, f.task = .ownFinalAttempt epoch delay ∧
          message = .ownFinalAttemptExpired epoch) ∨
        ∃ epoch, f.task = .ownFallback epoch delay ∧ message = .ownFallback epoch) := by
  unfold Flight.message at h
  split at h
  · next key attempt result task answer =>
      exact .inl ⟨key, attempt, result, task, answer, (Option.some.inj h).symm⟩
  · next connection attempt fresh result task answer =>
      exact .inr (.inl ⟨connection, attempt, fresh, result, task, answer,
        (Option.some.inj h).symm⟩)
  · next key generation task =>
      exact .inr (.inr (.inl ⟨key, generation, task, (Option.some.inj h).symm⟩))
  · next key attempt delay task =>
      obtain ⟨due, rfl⟩ := due_eq h
      exact .inr (.inr (.inr ⟨delay, due, .inl ⟨key, attempt, task, rfl⟩⟩))
  · next key generation delay task =>
      obtain ⟨due, rfl⟩ := due_eq h
      exact .inr (.inr (.inr ⟨delay, due, .inr (.inl ⟨key, generation, task, rfl⟩)⟩))
  · next memberId kind generation delay task =>
      obtain ⟨due, rfl⟩ := due_eq h
      exact .inr (.inr (.inr ⟨delay, due,
        .inr (.inr (.inl ⟨memberId, kind, generation, task, rfl⟩))⟩))
  · next attempt delay task =>
      obtain ⟨due, rfl⟩ := due_eq h
      exact .inr (.inr (.inr ⟨delay, due, .inr (.inr (.inr (.inl ⟨attempt, task, rfl⟩)))⟩))
  · next epoch delay task =>
      obtain ⟨due, rfl⟩ := due_eq h
      exact .inr (.inr (.inr ⟨delay, due, .inr (.inr (.inr (.inr (.inl ⟨epoch, task, rfl⟩))))⟩))
  · next epoch delay task =>
      obtain ⟨due, rfl⟩ := due_eq h
      exact .inr (.inr (.inr ⟨delay, due,
        .inr (.inr (.inr (.inr (.inr (.inl ⟨epoch, task, rfl⟩)))))⟩))
  · next epoch delay task =>
      obtain ⟨due, rfl⟩ := due_eq h
      exact .inr (.inr (.inr ⟨delay, due,
        .inr (.inr (.inr (.inr (.inr (.inr ⟨epoch, task, rfl⟩)))))⟩))
  all_goals cases h

theorem connection_of_ended {f : Flight} {now generation : ℕ} {key : String}
    (h : f.message now = some (.connectionEnded key generation)) :
    f.connection = some (key, generation) := by
  have cases_ := message_cases h
  simp only [reduceCtorEq, and_false, exists_false, or_false, false_or, Message.connectionEnded.injEq]
    at cases_
  obtain ⟨_, _, task, rfl, rfl⟩ := cases_
  rw [Flight.connection, task]

theorem budget_of_message {f : Flight} {now epoch : ℕ} (h : f.message now = some (.ownBudget epoch)) :
    ∃ delay, f.task = .ownBudget epoch delay ∧ f.since + delay ≤ now := by
  have cases_ := message_cases h
  simp only [reduceCtorEq, and_false, exists_false, or_false, false_or, Message.ownBudget.injEq]
    at cases_
  obtain ⟨delay, due, _, task, rfl⟩ := cases_
  exact ⟨delay, task, due⟩

theorem final_of_message {f : Flight} {now epoch : ℕ}
    (h : f.message now = some (.ownFinalAttemptExpired epoch)) :
    ∃ delay, f.task = .ownFinalAttempt epoch delay ∧ f.since + delay ≤ now := by
  have cases_ := message_cases h
  simp only [reduceCtorEq, and_false, exists_false, or_false, false_or,
    Message.ownFinalAttemptExpired.injEq] at cases_
  obtain ⟨delay, due, _, task, rfl⟩ := cases_
  exact ⟨delay, task, due⟩

theorem retry_of_message {f : Flight} {now attempt : ℕ}
    (h : f.message now = some (.ownRetry attempt)) :
    ∃ delay, f.task = .ownRetry attempt delay ∧ f.since + delay ≤ now := by
  have cases_ := message_cases h
  simp only [reduceCtorEq, and_false, exists_false, or_false, false_or, Message.ownRetry.injEq]
    at cases_
  obtain ⟨delay, due, _, task, rfl⟩ := cases_
  exact ⟨delay, task, due⟩

theorem attempt_of_message {f : Flight} {now attempt : ℕ} {result : Except TransportError Unit}
    (h : f.message now = some (.ownConnectFinished attempt result)) :
    ∃ connection fresh answer, f.task = .ownAttempt connection attempt fresh ∧
      f.answer = some answer ∧ result = answer.map fun _ => () := by
  have cases_ := message_cases h
  simp only [reduceCtorEq, and_false, exists_false, or_false, false_or,
    Message.ownConnectFinished.injEq] at cases_
  obtain ⟨connection, _, fresh, answer, task, answered, rfl, same⟩ := cases_
  exact ⟨connection, fresh, answer, task, answered, same⟩

theorem connect_of_message {f : Flight} {now attempt : ℕ} {key : String}
    {result : Except TransportError ℕ}
    (h : f.message now = some (.connectFinished key attempt result)) :
    f.task = .connect key attempt ∧ f.answer = some result := by
  have cases_ := message_cases h
  simp only [reduceCtorEq, and_false, exists_false, or_false,
    Message.connectFinished.injEq] at cases_
  obtain ⟨_, _, _, task, answered, rfl, rfl, rfl⟩ := cases_
  exact ⟨task, answered⟩

theorem message_of_connect {f : Flight} {now attempt : ℕ} {key : String} {message : Message}
    (task : f.task = .connect key attempt) (h : f.message now = some message) :
    ∃ result, message = .connectFinished key attempt result := by
  unfold Flight.message at h
  rw [task] at h
  cases answer : f.answer with
  | none =>
      rw [answer] at h
      cases h
  | some result =>
      rw [answer] at h
      exact ⟨result, (Option.some.inj h).symm⟩

theorem message_of_attempt {f : Flight} {now connection attempt : ℕ} {fresh : Bool}
    {message : Message} (task : f.task = .ownAttempt connection attempt fresh)
    (h : f.message now = some message) :
    ∃ result, message = .ownConnectFinished attempt result := by
  unfold Flight.message at h
  rw [task] at h
  cases answer : f.answer with
  | none =>
      rw [answer] at h
      cases h
  | some result =>
      rw [answer] at h
      exact ⟨_, (Option.some.inj h).symm⟩

theorem message_of_retry {f : Flight} {now attempt delay : ℕ} {message : Message}
    (task : f.task = .ownRetry attempt delay) (h : f.message now = some message) :
    message = .ownRetry attempt := by
  unfold Flight.message at h
  rw [task] at h
  exact (due_eq h).2.symm

theorem message_ne_connection {f : Flight} {now generation : ℕ} {key : String}
    {event : ConnectionEvent} : f.message now ≠ some (.connection key generation event) := by
  intro h
  have cases_ := message_cases h
  simp only [reduceCtorEq, and_false, exists_false, or_false] at cases_

theorem task_of_connection {f : Flight} {connection : String × ℕ}
    (h : f.connection = some connection) : f.task = .forward connection.1 connection.2 := by
  unfold Flight.connection at h
  split at h
  · next task =>
      cases h
      exact task
  · cases h

theorem mem_launch {tenure : ℕ} {births : String → ℕ} {tasks : List Spawned} {f : Flight}
    (there : f ∈ s.launch tenure births tasks) :
    f.task ∈ tasks ∧ s.started ≤ f.serial ∧ f.since = s.now ∧ f.tenure = tenure ∧
      f.cut = false ∧ f.answer = none ∧
      ∀ key attempt, f.task = .connect key attempt → f.birth = births key := by
  unfold System.launch at there
  obtain ⟨i, bound, rfl⟩ := List.mem_mapIdx.mp there
  refine ⟨List.getElem_mem bound, Nat.le_add_right _ _, rfl, rfl, rfl, rfl, ?_⟩
  intro key attempt is_connect
  dsimp only at is_connect ⊢
  rw [is_connect]

theorem task_launch {tenure : ℕ} {births : String → ℕ} (tasks : List Spawned) :
    (s.launch tenure births tasks).map Flight.task = tasks := by
  refine List.ext_getElem? fun i => ?_
  rw [System.launch, List.getElem?_map, List.getElem?_mapIdx, Option.map_map]
  exact Option.map_id'

theorem serial_launch {tenure : ℕ} {births : String → ℕ} (tasks : List Spawned) :
    (s.launch tenure births tasks).map Flight.serial = List.range' s.started tasks.length := by
  refine List.ext_getElem (by simp [System.launch]) fun i _ _ => ?_
  simp [System.launch]

theorem exists_launch {tenure : ℕ} {births : String → ℕ} {tasks : List Spawned} {task : Spawned}
    (there : task ∈ tasks) :
    ∃ f ∈ s.launch tenure births tasks, f.task = task ∧ s.started ≤ f.serial := by
  obtain ⟨i, bound, rfl⟩ := List.getElem_of_mem there
  exact ⟨_, List.mem_mapIdx.mpr ⟨i, bound, rfl⟩, rfl, Nat.le_add_right _ _⟩

variable {call : Call} {takeOver : Except TransportError Unit} {rest : List Flight}
  {lapsed : List (String × ℕ)}

/-- The pool as the call leaves it. -/
def System.left (s : System) (call : Call) (takeOver : Except TransportError Unit) : MediaPool :=
  s.pool.perform ⟨call, s.now, takeOver⟩

namespace Called

theorem pool (h : Called s call takeOver rest lapsed t) :
    t.pool = { s.left call takeOver with out := [], spawned := [] } := by
  rw [h.result]
  rfl

theorem now (h : Called s call takeOver rest lapsed t) : t.now = s.now := by
  rw [h.result]
  rfl

theorem reported (h : Called s call takeOver rest lapsed t) :
    t.reported = s.reported ++ (s.left call takeOver).out := by
  rw [h.result]
  rfl

theorem over_ (h : Called s call takeOver rest lapsed t) : t.over_ = lapsed ++ s.over_ := by
  rw [h.result]
  rfl

theorem flights (h : Called s call takeOver rest lapsed t) :
    t.flights = rest ++ s.launch t.tenure t.births (s.left call takeOver).spawned := by
  rw [h.result]
  rfl

theorem births (h : Called s call takeOver rest lapsed t) (key : String) :
    t.births key = if reborn s.pool (s.left call takeOver) key then s.births key + 1
      else s.births key := by
  rw [h.result]
  rfl

theorem started (h : Called s call takeOver rest lapsed t) :
    t.started = s.started + (s.left call takeOver).spawned.length := by
  rw [h.result]
  rfl

theorem tenure (h : Called s call takeOver rest lapsed t) :
    t.tenure = s.tenure + ((s.left call takeOver).out.filter isMove).length := by
  rw [h.result]
  rfl

theorem latest (h : Called s call takeOver rest lapsed t) :
    t.latest = match ((s.launch t.tenure t.births (s.left call takeOver).spawned).filter
        fun f => ofOwnFocus f.task).getLast? with
      | some f => some f.serial
      | none => if t.tenure = s.tenure then s.latest else none := by
  rw [h.result]
  rfl

theorem mem_flights (h : Called s call takeOver rest lapsed t) {f : Flight}
    (there : f ∈ t.flights) : f ∈ rest ∨
      f ∈ s.launch t.tenure t.births (s.left call takeOver).spawned := by
  rw [h.flights] at there
  exact List.mem_append.mp there

theorem launched (h : Called s call takeOver rest lapsed t) {task : Spawned}
    (there : task ∈ (s.left call takeOver).spawned) :
    ∃ f ∈ t.flights, f.task = task ∧ s.started ≤ f.serial := by
  obtain ⟨f, launched, same⟩ : ∃ f ∈ s.launch t.tenure t.births _, _ := exists_launch there
  refine ⟨f, ?_, same⟩
  rw [h.result] at launched ⊢
  exact List.mem_append_right _ launched

theorem does (h : Called s call takeOver rest lapsed t) (entries : OwnEntries s.pool)
    (whole : Whole (ownSide s.pool)) (apart : overtakes s.pool call = false) :
    Does s.now s.pool call (s.left call takeOver) :=
  @does_perform s.pool entries whole ⟨call, s.now, takeOver⟩ h.may apart

theorem side (h : Called s call takeOver rest lapsed t) :
    ownSide t.pool = { ownSide (s.left call takeOver) with tasks := [], news := [] } := by
  rw [h.pool]
  rfl

end Called

end

end MatrixRtc.PoolTasks

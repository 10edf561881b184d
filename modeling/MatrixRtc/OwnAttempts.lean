import MatrixRtc.OwnLosses
import Mathlib.Data.List.Perm.Basic

/-!
# Which attempt at our own focus counts

The attempts and backoffs of our own focus have a number that starts over at every loss, and
a result has nothing else. It is the latest attempt's as long as none of an attempt for a
focus we have left comes in while one of its number is awaited.
-/
namespace MatrixRtc.OwnAttempts
open MemberEvents MediaTransports Tables MediaPools PoolFrames OwnFocus PoolTasks StepRuns
  PoolMembers
open OwnLosses (movableConfig)

/-- The entry of our own focus waits for this attempt, or for the end of this backoff. -/
def awaits (v : OwnSide) (task : Spawned) : Bool :=
  match task, v.entry with
  | .ownAttempt _ attempt _, some (.connecting awaited, _) => attempt == awaited
  | .ownRetry attempt _, some (.backoff awaited, _) => attempt == awaited
  | _, _ => false

/-- An attempt or a backoff for a focus that we have left, or a backoff whose attempt was made
at the end of the budget. -/
def stale (s : System) (f : Flight) : Bool := f.tenure != s.tenure || f.cut

/-- The step takes something else for what our own focus waits for. -/
def confuses (s : System) (a : Action) : Bool :=
  (OwnLosses.callOf s a).any (overtakes s.pool) ||
    match a with
    | .deliver i _ => s.flights[i]?.any fun f => stale s f && awaits (ownSide s.pool) f.task
    | _ => false

def Clear (s : System) (a : Action) : Prop := confuses s a = false

instance (s : System) (a : Action) : Decidable (Clear s a) := inferInstanceAs (Decidable (_ = _))

def isAttempt : Spawned → Bool
  | .ownAttempt _ _ _ => true
  | _ => false

/-- The result of an attempt and the end of a backoff do something about our own focus only
where it is the latest that was started for it, our moving on apart; and the result of an
attempt for a focus we have left does nothing. -/
def Counts (s : System) (a : Action) : Prop :=
  ∀ t ∈ step s a, ∀ i takeOver f, a = .deliver i takeOver → s.flights[i]? = some f →
    ofOwnFocus f.task →
      (ownSide t.pool ≠ ownSide s.pool → t.tenure = s.tenure → s.latest = some f.serial) ∧
        (isAttempt f.task → f.tenure ≠ s.tenure → ownSide t.pool = ownSide s.pool)

/-- The call comes when nothing is awaited, or is what was. -/
inductive Clears (v : OwnSide) : Call → Prop
  | idle {call : Call} (fresh : v.own = none) (unlost : v.ownLost = false) : Clears v call
  | up {call : Call} {connection generation : ℕ}
      (entry : v.entry = some (.up connection, generation)) : Clears v call
  | answered {attempt generation : ℕ} (result : Except TransportError Unit)
      (entry : v.entry = some (.connecting attempt, generation)) :
      Clears v (.handle (.ownConnectFinished attempt result))
  | retried {attempt generation : ℕ} (entry : v.entry = some (.backoff attempt, generation)) :
      Clears v (.handle (.ownRetry attempt))
  | budget {attempt generation : ℕ} {own : OwnRecovery} (is_own : v.own = some own)
      (lost : own.lostSince.isSome) (entry : v.entry = some (.backoff attempt, generation)) :
      Clears v (.handle (.ownBudget own.epoch))

/-- What becomes of what is awaited: it still is, or nothing more is; something else is, once
nothing was; or our focus is another. -/
inductive Turn (v : OwnSide) (call : Call) (w : OwnSide) : Prop
  | kept (tasks : w.tasks.filter ofOwnFocus = []) (moves : w.news.filter isMove = [])
      (same : w.entry.map Prod.fst = v.entry.map Prod.fst ∨ w.entry = none)
  | cleared (clears : Clears v call) (moves : w.news.filter isMove = [])
      (tasks : w.tasks.filter ofOwnFocus = [] ∨
        ∃ task, w.tasks.filter ofOwnFocus = [task] ∧ awaits w task)
  | moved (tasks : w.tasks.filter ofOwnFocus = []) (moves : (w.news.filter isMove).length = 1)

section
variable {v w u : OwnSide} {call : Call}

theorem Clears.attempt (clears : Clears v call) (own : OwnRecovery) (attempt : ℕ)
    (tasks : u.tasks.filter ofOwnFocus = []) (moves : u.news.filter isMove = [])
    (entry : u.entry.isSome) : Turn v call (u.attempt own attempt) := by
  refine .cleared clears moves
    (.inr ⟨.ownAttempt own.connection attempt own.refetchNext, ?_, ?_⟩)
  · rw [OwnSide.attempt, List.filter_append, tasks]
    rfl
  · obtain ⟨before, entry⟩ := Option.isSome_iff_exists.mp entry
    simp [awaits, OwnSide.attempt, entry]

theorem Clears.backOff (clears : Clears v call) (attempt delay : ℕ)
    (tasks : u.tasks.filter ofOwnFocus = []) (moves : u.news.filter isMove = [])
    (entry : u.entry.isSome) : Turn v call (u.backOff attempt delay) := by
  refine .cleared clears moves (.inr ⟨.ownRetry attempt delay, ?_, ?_⟩)
  · rw [OwnSide.backOff, List.filter_append, tasks]
    rfl
  · obtain ⟨before, entry⟩ := Option.isSome_iff_exists.mp entry
    simp [awaits, OwnSide.backOff, entry]

theorem lossTasks_unawaited (own : OwnRecovery) (budget : ℕ) :
    (lossTasks own budget).filter ofOwnFocus = [] := by
  unfold lossTasks
  split_ifs <;> rfl

theorem lossBegins_unawaited (own : OwnRecovery) (now : ℕ) (none_ : v.tasks = []) :
    (v.lossBegins own now).tasks.filter ofOwnFocus = [] := by
  rw [OwnSide.lossBegins, none_]
  exact lossTasks_unawaited own v.budget

theorem turn_move {now : ℕ} (m : OwnMove now v call w) (noTasks : v.tasks = [])
    (noNews : v.news = []) : Turn v call w := by
  have tasks : v.tasks.filter ofOwnFocus = [] := by rw [noTasks]; rfl
  have moves : v.news.filter isMove = [] := by rw [noNews]; rfl
  cases m with
  | still => exact .kept tasks moves (.inl rfl)
  | began connection is_key fresh unlost opened =>
      exact (Clears.idle fresh unlost).attempt _ 0 (lossBegins_unawaited _ now noTasks) moves rfl
  | adopted is_key fresh unlost opened =>
      exact .cleared (.idle fresh unlost) moves (.inl tasks)
  | linkLost => exact .kept (lossBegins_unawaited _ now noTasks) moves (.inl rfl)
  | linkBack => exact .kept tasks moves (.inl rfl)
  | down by_end is_key entry is_own =>
      exact (Clears.up entry).attempt _ 0 (lossBegins_unawaited _ now noTasks) moves
        (Option.isSome_of_mem entry)
  | connected entry is_own => exact .cleared (.answered _ entry) moves (.inl tasks)
  | failed error delay entry is_own =>
      exact (Clears.answered _ entry).backOff _ delay tasks moves (Option.isSome_of_mem entry)
  | refetched message delay entry is_own =>
      exact (Clears.answered _ entry).backOff _ delay tasks moves (Option.isSome_of_mem entry)
  | refused | spent | expired =>
      refine .kept tasks ?_ (.inr rfl)
      rw [OwnSide.givenUp, noNews]
      rfl
  | retried entry is_own =>
      exact (Clears.retried entry).attempt _ _ tasks moves (Option.isSome_of_mem entry)
  | budgetOver =>
      refine .kept ?_ moves (.inl rfl)
      rw [noTasks]
      rfl
  | @lastAttempt attempt generation own is_own lost entry =>
      refine .cleared (.budget is_own lost entry) moves
        (.inr ⟨.ownAttempt own.connection attempt own.refetchNext, ?_, ?_⟩)
      · rw [OwnSide.attempt, noTasks]
        rfl
      · simp [awaits, OwnSide.attempt, entry]
  | moved =>
      refine .moved tasks ?_
      rw [noNews]
      rfl
  | closed => exact .kept tasks moves (.inr rfl)

end

section
variable {v w : OwnSide} {now attempt : ℕ}

theorem attempt_move {result : Except TransportError Unit}
    (m : OwnMove now v (.handle (.ownConnectFinished attempt result)) w) :
    w = v ∨ ∃ generation, v.entry = some (.connecting attempt, generation) := by
  cases m with
  | still => exact .inl rfl
  | down by_end => obtain same | ⟨message, same⟩ := by_end <;> cases same
  | connected entry | failed _ _ entry | refetched _ _ entry | refused entry | spent _ _ entry =>
      exact .inr ⟨_, entry⟩
  | moved _ _ may => cases may

theorem retry_move (m : OwnMove now v (.handle (.ownRetry attempt)) w) (noNews : v.news = []) :
    w = v ∨ (∃ generation, v.entry = some (.backoff attempt, generation)) ∨
      (w.news.filter isMove).length = 1 := by
  cases m with
  | still => exact .inl rfl
  | down by_end => obtain same | ⟨message, same⟩ := by_end <;> cases same
  | retried entry => exact .inr (.inl ⟨_, entry⟩)
  | moved =>
      refine .inr (.inr ?_)
      rw [noNews]
      rfl

end

/-- What holds of a pool and of the attempts and backoffs it has started. -/
structure Inv (s : System) : Prop where
  entries : OwnEntries s.pool
  whole : Whole (ownSide s.pool)
  spawned : s.pool.spawned = []
  out : s.pool.out = []
  serials : (s.flights.map Flight.serial).Nodup
  started : ∀ f ∈ s.flights, f.serial < s.started
  tenures : ∀ f ∈ s.flights, f.tenure ≤ s.tenure
  idle : s.pool.own = none → s.pool.ownLost = false → ∀ f ∈ s.flights, ofOwnFocus f.task = false
  awaited : ∀ f ∈ s.flights, f.tenure = s.tenure → ofOwnFocus f.task → f.cut = false →
    (ownSide s.pool).entry.isSome → s.latest = some f.serial ∧ awaits (ownSide s.pool) f.task
  uncut : ∀ f ∈ s.flights, f.cut → isRetry f.task

section
variable {s t : System} {call : Call} {takeOver : Except TransportError Unit}
  {rest : List Flight} {lapsed : List (String × ℕ)}

theorem inv_start (config : PoolConfig) (now : ℕ) : Inv (start config now) where
  entries := .new config
  whole := by simp [Whole, ownSide, start, MediaPool.new, MediaPool.ownEntry]
  spawned := rfl
  out := rfl
  serials := List.nodup_nil
  started _ there := nomatch there
  tenures _ there := nomatch there
  idle _ _ _ there := nomatch there
  awaited _ there := nomatch there
  uncut _ there := nomatch there

theorem launch_focus {tenure : ℕ} {births : String → ℕ} (tasks : List Spawned) :
    ((s.launch tenure births tasks).filter fun f => ofOwnFocus f.task).map Flight.task =
      tasks.filter ofOwnFocus := by
  have mapped : ((s.launch tenure births tasks).map Flight.task).filter ofOwnFocus =
      tasks.filter ofOwnFocus := congrArg _ (task_launch tasks)
  rwa [List.filter_map] at mapped

theorem awaits_congr {v w : OwnSide} (same : w.entry.map Prod.fst = v.entry.map Prod.fst)
    (task : Spawned) : awaits w task = awaits v task := by
  unfold awaits
  cases before : v.entry with
  | none =>
      rw [before, Option.map_none, Option.map_eq_none_iff] at same
      rw [same]
  | some entry =>
      obtain ⟨state, generation⟩ := entry
      rw [before] at same
      obtain ⟨⟨_, _⟩, after, is_state⟩ := Option.map_eq_some_iff.mp same
      cases is_state
      rw [after]
      cases task <;> cases state <;> rfl

theorem focusTasks_eq (p : MediaPool) :
    (ownSide p).tasks.filter ofOwnFocus = p.spawned.filter ofOwnFocus := by
  rw [ownSide, List.filter_filter]
  refine List.filter_congr fun task _ => ?_
  cases task <;> rfl

theorem moves_eq (p : MediaPool) : (ownSide p).news.filter isMove = p.out.filter isMove := by
  rw [ownSide, List.filter_filter]
  refine List.filter_congr fun event _ => ?_
  cases event <;> rfl

/-- What is awaited after a call is the latest that was started. -/
theorem Inv.awaited_called (inv : Inv s) (h : Called s call takeOver rest lapsed t)
    (turn : Turn (ownSide s.pool) call (ownSide (s.left call takeOver)))
    (older : ∀ f ∈ rest, ∃ g ∈ s.flights, SameTask g f ∧ (f.cut = false → g.cut = false) ∧
      (f.cut → isRetry f.task))
    (cleared : Clears (ownSide s.pool) call → ∀ f ∈ rest, f.tenure = s.tenure →
      ofOwnFocus f.task → f.cut = true) {f : Flight} (there : f ∈ t.flights)
    (tenure : f.tenure = t.tenure) (focus : ofOwnFocus f.task) (uncut : f.cut = false)
    (entry : (ownSide t.pool).entry.isSome) :
    t.latest = some f.serial ∧ awaits (ownSide t.pool) f.task := by
  have sameEntry : (ownSide t.pool).entry = (ownSide (s.left call takeOver)).entry := by rw [h.side]
  have sameAwaits : awaits (ownSide t.pool) f.task =
      awaits (ownSide (s.left call takeOver)) f.task :=
    awaits_congr (congrArg _ sameEntry) f.task
  rw [sameEntry] at entry
  rw [sameAwaits]
  have grows := h.tenure
  rw [← moves_eq] at grows
  have focusTasks : ((s.launch t.tenure t.births (s.left call takeOver).spawned).filter
      fun f => ofOwnFocus f.task).map Flight.task =
        (ownSide (s.left call takeOver)).tasks.filter ofOwnFocus := by
    rw [focusTasks_eq]
    exact launch_focus _
  have launchedFocus (launched : f ∈ s.launch t.tenure t.births (s.left call takeOver).spawned) :
      f ∈ (s.launch t.tenure t.births (s.left call takeOver).spawned).filter
        fun f => ofOwnFocus f.task := List.mem_filter.mpr ⟨launched, focus⟩
  cases turn with
  | kept tasks moves same =>
      rw [tasks, List.map_eq_nil_iff] at focusTasks
      rw [moves, List.length_nil, Nat.add_zero] at grows
      obtain before | launched := h.mem_flights there
      · obtain ⟨g, earlier, sameTask, wasUncut, -⟩ := older f before
        obtain same | gone := same
        · rw [← Option.isSome_map (f := Prod.fst), same, Option.isSome_map] at entry
          obtain ⟨latest, awaited⟩ := inv.awaited g earlier
            (sameTask.tenure.symm.trans (tenure.trans grows)) (sameTask.task ▸ focus)
            (wasUncut uncut) entry
          rw [h.latest, focusTasks, sameTask.serial, sameTask.task, awaits_congr same]
          exact ⟨(if_pos grows).trans latest, awaited⟩
        · rw [gone] at entry
          cases entry
      · have there := launchedFocus launched
        rw [focusTasks] at there
        cases there
  | cleared clears moves tasks =>
      rw [moves, List.length_nil, Nat.add_zero] at grows
      obtain before | launched := h.mem_flights there
      · have cut := cleared clears f before (tenure.trans grows) focus
        exact absurd (cut.symm.trans uncut) Bool.noConfusion
      · have there := launchedFocus launched
        obtain none_ | ⟨task, only, awaited⟩ := tasks
        · rw [none_, List.map_eq_nil_iff] at focusTasks
          rw [focusTasks] at there
          cases there
        · rw [only] at focusTasks
          obtain ⟨g, alone, rfl⟩ := List.map_eq_singleton_iff.mp focusTasks
          rw [alone] at there
          obtain rfl := List.mem_singleton.mp there
          rw [h.latest, alone]
          exact ⟨rfl, awaited⟩
  | moved tasks moves =>
      rw [tasks, List.map_eq_nil_iff] at focusTasks
      obtain before | launched := h.mem_flights there
      · obtain ⟨g, earlier, sameTask, -⟩ := older f before
        have was := inv.tenures g earlier
        rw [sameTask.tenure] at tenure
        omega
      · have there := launchedFocus launched
        rw [focusTasks] at there
        cases there

/-- A call that comes when nothing is awaited, or is what was. -/
theorem Inv.called (inv : Inv s) (h : Called s call takeOver rest lapsed t)
    (apart : overtakes s.pool call = false)
    (serials : (rest.map Flight.serial).Sublist (s.flights.map Flight.serial))
    (older : ∀ f ∈ rest, ∃ g ∈ s.flights, SameTask g f ∧ (f.cut = false → g.cut = false) ∧
      (f.cut → isRetry f.task))
    (cleared : Clears (ownSide s.pool) call → ∀ f ∈ rest, f.tenure = s.tenure →
      ofOwnFocus f.task → f.cut = true) : Inv t := by
  obtain ⟨move, entries⟩ := h.does inv.entries inv.whole apart
  have noTasks : (ownSide s.pool).tasks = [] := by simp [ownSide, inv.spawned]
  have noNews : (ownSide s.pool).news = [] := by simp [ownSide, inv.out]
  have flights {f : Flight} (there : f ∈ t.flights) := h.mem_flights there
  refine
    { entries := ?_, whole := ?_, spawned := ?_, out := ?_, serials := ?_, started := ?_
      tenures := ?_, idle := ?_, awaited := ?_, uncut := ?_ }
  · exact entries.of_same (by rw [h.pool]) (by rw [h.pool])
  · have whole := move.whole inv.whole
    rw [h.side]
    exact whole
  · rw [h.pool]
  · rw [h.pool]
  · rw [h.flights, List.map_append, serial_launch, List.nodup_append]
    refine ⟨inv.serials.sublist serials, List.nodup_range', ?_⟩
    rintro serial before _ launched rfl
    obtain ⟨g, there, rfl⟩ := List.mem_map.mp (serials.subset before)
    have early := inv.started g there
    have late := (List.mem_range'_1.mp launched).1
    omega
  · intro f there
    rw [h.started]
    obtain before | launched := flights there
    · obtain ⟨g, earlier, same, -⟩ := older f before
      have early := inv.started g earlier
      rw [same.serial]
      omega
    · have there := List.mem_map_of_mem (f := Flight.serial) launched
      rw [serial_launch] at there
      exact (List.mem_range'_1.mp there).2
  · intro f there
    rw [h.tenure]
    obtain before | launched := flights there
    · obtain ⟨g, earlier, same, -⟩ := older f before
      rw [same.tenure]
      exact Nat.le_add_right_of_le (inv.tenures g earlier)
    · obtain ⟨-, -, -, tenure, -⟩ := mem_launch launched
      rw [tenure, h.tenure]
  · intro fresh unlost f there
    obtain ⟨fresh, unlost, tasks⟩ := OwnLosses.idle_move move
      (show (ownSide (s.left call takeOver)).own = none by rw [h.pool] at fresh; exact fresh)
      (show (ownSide (s.left call takeOver)).ownLost = false by rw [h.pool] at unlost; exact unlost)
    obtain before | launched := flights there
    · obtain ⟨g, earlier, same, -⟩ := older f before
      rw [same.task]
      exact inv.idle fresh unlost g earlier
    · by_contra focus
      have started := List.mem_filter.mpr ⟨(mem_launch launched).1, (Bool.not_eq_false _).mp focus⟩
      rw [← focusTasks_eq, tasks, noTasks] at started
      cases started
  · intro f there tenure focus uncut entry
    exact inv.awaited_called h (turn_move move noTasks noNews) older cleared there tenure focus uncut
      entry
  · intro f there cut
    obtain before | launched := flights there
    · obtain ⟨g, earlier, same, -, retry⟩ := older f before
      exact retry cut
    · obtain ⟨-, -, -, -, uncut, -⟩ := mem_launch launched
      exact absurd (cut.symm.trans uncut) Bool.noConfusion

theorem Inv.unawaited (inv : Inv s) {f : Flight} (there : f ∈ s.flights)
    (tenure : f.tenure = s.tenure) (focus : ofOwnFocus f.task)
    (quiet : s.pool.own = none ∧ s.pool.ownLost = false ∨
      ∃ connection generation, (ownSide s.pool).entry = some (.up connection, generation)) :
    f.cut = true := by
  obtain ⟨fresh, unlost⟩ | ⟨connection, generation, up⟩ := quiet
  · exact absurd (focus.symm.trans (inv.idle fresh unlost f there)) Bool.noConfusion
  · by_contra uncut
    have awaited := (inv.awaited f there tenure focus (Bool.not_eq_true _ ▸ uncut)
      (Option.isSome_of_mem up)).2
    unfold awaits at awaited
    rw [up] at awaited
    cases is_task : f.task <;> rw [is_task] at awaited <;> cases awaited

theorem serial_ne {flights : List Flight} {i : ℕ} {f g : Flight}
    (nodup : (flights.map Flight.serial).Nodup) (there : flights[i]? = some f)
    (other : g ∈ flights.eraseIdx i) : g.serial ≠ f.serial := by
  obtain ⟨bound, rfl⟩ := List.getElem?_eq_some_iff.mp there
  have split := (List.getElem_cons_eraseIdx_perm bound).map Flight.serial
  have nodup := split.nodup_iff.mpr nodup
  rw [List.map_cons, List.nodup_cons] at nodup
  exact fun same => nodup.1 (same ▸ List.mem_map_of_mem other)

theorem Inv.alone (inv : Inv s) {i : ℕ} {f g : Flight} (there : s.flights[i]? = some f)
    (fresh : stale s f = false) (focus : ofOwnFocus f.task) (entry : (ownSide s.pool).entry.isSome)
    (other : g ∈ s.flights.eraseIdx i) (tenure : g.tenure = s.tenure) (focus' : ofOwnFocus g.task) :
    g.cut = true := by
  by_contra uncut
  simp only [stale, Bool.or_eq_false_iff, bne_eq_false_iff_eq] at fresh
  have latest := (inv.awaited f (List.mem_of_getElem? there) fresh.1 focus fresh.2 entry).1
  have latest' := (inv.awaited g (List.mem_of_mem_eraseIdx other) tenure focus'
    (Bool.not_eq_true _ ▸ uncut) entry).1
  exact serial_ne inv.serials there other (Option.some.inj (latest'.symm.trans latest))

/-- What is handled is awaited, and is then the only one. -/
theorem Inv.delivered_clears (inv : Inv s) {i : ℕ} {f : Flight} {message : Message}
    (h : Delivered s i takeOver f message t) (fresh : awaits (ownSide s.pool) f.task →
      stale s f = false) (clears : Clears (ownSide s.pool) (.handle message)) {g : Flight}
    (there : g ∈ s.cutShort message (s.flights.eraseIdx i)) (tenure : g.tenure = s.tenure)
    (focus : ofOwnFocus g.task) : g.cut = true := by
  obtain ⟨g', left, same, -, cut⟩ := mem_cutShort there
  obtain cut | ⟨cut, -⟩ := cut
  · rw [cut]
    have there' := List.mem_of_mem_eraseIdx left
    have tenure' := same.tenure.symm.trans tenure
    have focus' : ofOwnFocus g'.task := same.task ▸ focus
    generalize is_call : Call.handle message = call at clears
    cases clears with
    | idle own unlost => exact inv.unawaited there' tenure' focus' (.inl ⟨own, unlost⟩)
    | up entry => exact inv.unawaited there' tenure' focus' (.inr ⟨_, _, entry⟩)
    | answered result entry =>
        cases is_call
        obtain ⟨own, refetch, answer, task, -⟩ := attempt_of_message h.sends
        refine inv.alone h.there (fresh ?_) (by rw [task]; rfl) (Option.isSome_of_mem entry) left
          tenure' focus'
        simp [awaits, task, entry]
    | retried entry =>
        cases is_call
        obtain ⟨delay, task, -⟩ := retry_of_message h.sends
        refine inv.alone h.there (fresh ?_) (by rw [task]; rfl) (Option.isSome_of_mem entry) left
          tenure' focus'
        simp [awaits, task, entry]
    | @budget attempt generation own is_own lost entry =>
        cases is_call
        have lasts : s.pool.lossStands own.epoch := by
          rw [MediaPool.lossStands, show s.pool.own = some own from is_own]
          simp [lost]
        obtain ⟨entry', is_entry, state⟩ := Option.map_eq_some_iff.mp entry
        have waits : s.pool.ownEntry.map ManagedConnection.state = some (.backoff attempt) := by
          rw [is_entry]
          exact congrArg some (congrArg Prod.fst state)
        by_contra uncut
        have awaited := (inv.awaited g' there' tenure' focus' (Bool.not_eq_true _ ▸ uncut)
          (Option.isSome_of_mem entry)).2
        have retry : isRetry g.task := by
          rw [same.task]
          unfold awaits at awaited
          rw [entry] at awaited
          cases is_task : g'.task <;> rw [is_task] at awaited <;> first | rfl | cases awaited
        exact uncut (cut ▸ cut_of_cutShort there lasts waits retry)
  · exact cut

/-- Time passes, or a task answers. -/
theorem Inv.quiet (inv : Inv s) (pool : t.pool = s.pool) (latest : t.latest = s.latest)
    (tenure : t.tenure = s.tenure) (started : t.started = s.started)
    (serials : t.flights.map Flight.serial = s.flights.map Flight.serial)
    (same : ∀ f ∈ t.flights, ∃ g ∈ s.flights, SameTask g f ∧ f.cut = g.cut) : Inv t where
  entries := pool ▸ inv.entries
  whole := pool ▸ inv.whole
  spawned := pool ▸ inv.spawned
  out := pool ▸ inv.out
  serials := serials ▸ inv.serials
  started f there := by
    obtain ⟨g, before, same, -⟩ := same f there
    rw [started, same.serial]
    exact inv.started g before
  tenures f there := by
    obtain ⟨g, before, same, -⟩ := same f there
    rw [tenure, same.tenure]
    exact inv.tenures g before
  idle fresh unlost f there := by
    obtain ⟨g, before, same, -⟩ := same f there
    rw [same.task]
    exact inv.idle (pool ▸ fresh) (pool ▸ unlost) g before
  awaited f there ofTenure focus uncut entry := by
    obtain ⟨g, before, same, cut⟩ := same f there
    rw [latest, pool, same.serial, same.task]
    exact inv.awaited g before (by rw [← same.tenure, ofTenure, tenure]) (same.task ▸ focus)
      (cut ▸ uncut) (pool ▸ entry)
  uncut f there cut := by
    obtain ⟨g, before, same, wasCut⟩ := same f there
    rw [same.task]
    exact inv.uncut g before (wasCut ▸ cut)

theorem Inv.older (inv : Inv s) (message : Message) (i : ℕ) {f : Flight}
    (there : f ∈ s.cutShort message (s.flights.eraseIdx i)) : ∃ g ∈ s.flights, SameTask g f ∧
      (f.cut = false → g.cut = false) ∧ (f.cut → isRetry f.task) := by
  obtain ⟨g, left, same, -, cut⟩ := mem_cutShort there
  have before := List.mem_of_mem_eraseIdx left
  refine ⟨g, before, same, fun uncut => ?_, fun isCut => ?_⟩
  · obtain cut | ⟨cut, -⟩ := cut
    · exact cut.symm.trans uncut
    · exact absurd (cut.symm.trans uncut) Bool.noConfusion
  · obtain cut | ⟨-, retry⟩ := cut
    · rw [same.task]
      exact inv.uncut g before (cut ▸ isCut)
    · exact retry

theorem inv_step {a : Action} (inv : Inv s) (clear : Clear s a) (next : step s a = some t) :
    Inv t := by
  have older {f : Flight} (there : f ∈ s.flights) : ∃ g ∈ s.flights, SameTask g f ∧
      (f.cut = false → g.cut = false) ∧ (f.cut → isRetry f.task) :=
    ⟨f, there, .refl f, id, inv.uncut f there⟩
  obtain ⟨apart, fresh⟩ := Bool.or_eq_false_iff.mp clear
  obtain ⟨ms, rfl, rfl⟩ | ⟨i, result, f, rfl, there, -, rfl⟩ | ⟨call, takeOver, rfl, may, called⟩ |
    ⟨i, takeOver, f, message, rfl, delivered⟩ |
    ⟨i, event, takeOver, f, connection, rfl, happened⟩ := step_cases next
  · exact inv.quiet rfl rfl rfl rfl rfl fun f there => ⟨f, there, .refl f, rfl⟩
  · refine inv.quiet rfl rfl rfl rfl ?_ fun g set => ?_
    · obtain ⟨bound, rfl⟩ := List.getElem?_eq_some_iff.mp there
      have mapped : i < (s.flights.map Flight.serial).length := by rwa [List.length_map]
      rw [List.map_set, ← List.getElem_map (h := mapped) Flight.serial]
      exact List.set_getElem_self mapped
    · obtain before | rfl := List.mem_or_eq_of_mem_set set
      · exact ⟨g, before, .refl g, rfl⟩
      · exact ⟨f, List.mem_of_getElem? there, ⟨rfl, rfl, rfl, rfl, rfl⟩, rfl⟩
  · refine inv.called called apart (.refl _) (fun f there => older there)
      fun clears f there tenure focus => ?_
    cases clears with
    | idle own unlost => exact inv.unawaited there tenure focus (.inl ⟨own, unlost⟩)
    | up entry => exact inv.unawaited there tenure focus (.inr ⟨_, _, entry⟩)
    | answered | retried | budget => cases may
  · have is_call : OwnLosses.callOf s (.deliver i takeOver) = some (.handle message) := by
      simp [OwnLosses.callOf, delivered.there, delivered.sends]
    rw [is_call, Option.any_some] at apart
    have awaited : awaits (ownSide s.pool) f.task → stale s f = false := by
      intro awaited
      simp only [delivered.there, Option.any_some, awaited, Bool.and_true] at fresh
      exact fresh
    refine inv.called delivered.called apart ?_ (fun f there => inv.older message i there)
      fun clears g there tenure focus => inv.delivered_clears delivered awaited clears there tenure focus
    rw [serial_cutShort]
    exact (List.eraseIdx_sublist _ _).map _
  · have is_call : OwnLosses.callOf s (.event i event takeOver) =
        some (.handle (.connection connection.1 connection.2 event)) := by
      simp [OwnLosses.callOf, happened.there, happened.forwards]
    rw [is_call, Option.any_some] at apart
    refine inv.called happened.called apart (.refl _) (fun f there => older there)
      fun clears f there tenure focus => ?_
    cases clears with
    | idle own unlost => exact inv.unawaited there tenure focus (.inl ⟨own, unlost⟩)
    | up entry => exact inv.unawaited there tenure focus (.inr ⟨_, _, entry⟩)

/-- What is done about our own focus is done for the latest attempt or backoff. -/
theorem counts_step {a : Action} (inv : Inv s) (clear : Clear s a) : Counts s a := by
  intro t next i takeOver f is_deliver there focus
  obtain ⟨_, rfl, -⟩ | ⟨_, _, _, rfl, -⟩ | ⟨_, _, rfl, -⟩ | ⟨i', takeOver', f', message, rfl, delivered⟩ |
    ⟨_, _, _, _, _, rfl, -⟩ := step_cases next
  all_goals cases is_deliver
  cases there.symm.trans delivered.there
  obtain ⟨apart, fresh⟩ := Bool.or_eq_false_iff.mp clear
  have is_call : OwnLosses.callOf s (.deliver i takeOver) = some (.handle message) := by
    simp [OwnLosses.callOf, delivered.there, delivered.sends]
  rw [is_call, Option.any_some] at apart
  obtain ⟨move, -⟩ := delivered.called.does inv.entries inv.whole apart
  have noNews : (ownSide s.pool).news = [] := by simp [ownSide, inv.out]
  have noTasks : (ownSide s.pool).tasks = [] := by simp [ownSide, inv.spawned]
  have still (same : ownSide (s.left (.handle message) takeOver) = ownSide s.pool) :
      ownSide t.pool = ownSide s.pool := by
    rw [delivered.called.side, same, ← noTasks, ← noNews]
  -- What is awaited is the latest.
  have latest (awaited : awaits (ownSide s.pool) f.task)
      (entry : (ownSide s.pool).entry.isSome) :
      f.tenure = s.tenure ∧ s.latest = some f.serial := by
    simp only [delivered.there, Option.any_some, awaited, Bool.and_true, stale,
      Bool.or_eq_false_iff, bne_eq_false_iff_eq] at fresh
    exact ⟨fresh.1, (inv.awaited f (List.mem_of_getElem? there) fresh.1 focus fresh.2 entry).1⟩
  cases is_task : f.task with
  | ownAttempt connection attempt freshToken =>
      have counts : ownSide t.pool = ownSide s.pool ∨
          f.tenure = s.tenure ∧ s.latest = some f.serial := by
        obtain ⟨_, rfl⟩ := message_of_attempt is_task delivered.sends
        obtain same | ⟨generation, entry⟩ := attempt_move move
        · exact .inl (still same)
        · exact .inr (latest (by simp [awaits, is_task, entry]) (Option.isSome_of_mem entry))
      obtain same | ⟨tenure, latest⟩ := counts
      · exact ⟨fun changed => absurd same changed, fun _ _ => same⟩
      · exact ⟨fun _ _ => latest, fun _ differs => absurd tenure differs⟩
  | ownRetry attempt delay =>
      refine ⟨fun changed sameTenure => ?_, fun is_attempt => by cases is_attempt⟩
      obtain rfl := message_of_retry is_task delivered.sends
      obtain same | ⟨generation, entry⟩ | moves := retry_move move noNews
      · exact absurd (still same) changed
      · exact (latest (by simp [awaits, is_task, entry]) (Option.isSome_of_mem entry)).2
      · have grows := delivered.called.tenure
        rw [← moves_eq, moves, sameTenure] at grows
        omega
  | _ =>
      rw [is_task] at focus
      cases focus

end

/-- As long as nothing else is taken for what our own focus waits for, the result of an attempt
and the end of a backoff count where they are the latest, and an attempt for a focus that we
have left does nothing. -/
theorem attempts_count_for_their_focus (config : PoolConfig) (now : ℕ) (as : List Action)
    (clear : Admissible step Clear (start config now) as) :
    Admissible step Counts (start config now) as :=
  clear.of_invariant (fun _ _ _ => inv_step) (fun _ _ => counts_step) (inv_start config now)

/-- Our own focus is refused us. -/
theorem attempts_count_refused :
    Admissible step Counts (start movableConfig 0)
      [.owner (.connectOwn "https://a.x" 10) (.ok ()), .answer 2 (.error (.refused "full")),
        .deliver 2 (.ok ())] :=
  attempts_count_for_their_focus movableConfig 0 _ (by decide +kernel)

/-- Our own focus is lost, we move to Bob's, and lose that too. Both attempts are out. -/
def twoAttempts : List Action :=
  [.owner (.applySnapshot [bobOnB]) (.ok ()), .answer 0 (.ok 20), .deliver 0 (.ok ()),
    .owner (.adoptOwnConnection "https://a.x" 10) (.ok ()), .event 1 (.closed "lost") (.ok ()),
    .tick 10000, .deliver 3 (.ok ()), .event 0 (.closed "lost") (.ok ()),
    .answer 3 (.error (.refused "full"))]

/-- The focus we have left refuses us, and that we moved to is given up. -/
theorem refusal_of_another_focus_counts :
    ¬ ∀ (config : PoolConfig) (now : ℕ) (as : List Action),
      Admissible step Counts (start config now) as := by
  intro h
  have steps := h movableConfig 0 (twoAttempts ++ [.deliver 3 (.ok ())])
  have reaches := (Option.some_get (by decide +kernel :
    (run step (start movableConfig 0) twoAttempts).isSome)).symm
  have counts := (steps.append reaches).2.1
  have same := (counts _ (Option.some_get (by decide +kernel)).symm 3 (.ok ()) _ rfl
    (Option.some_get (by decide +kernel)).symm (by decide +kernel)).2 (by decide +kernel)
      (by decide +kernel)
  exact absurd (congrArg OwnSide.ownLost same) (by decide +kernel)

end MatrixRtc.OwnAttempts

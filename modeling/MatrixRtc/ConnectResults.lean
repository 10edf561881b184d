import MatrixRtc.PoolConnects
import MatrixRtc.TaskSteps
import MatrixRtc.PoolMembers
import Mathlib.Data.List.Perm.Basic

/-!
# One connect a focus

Over a run of a pool and its tasks, a focus has one connect that is out or one connection
that is open, and the result of a connect is taken by the entry that started it, as long as
no snapshot asks again for a focus whose entry is gone while a connect to it is out.
-/
namespace MatrixRtc.ConnectResults
open MemberEvents MediaTransports Tables MediaPools PoolFrames OwnFocus PoolConnects PoolTasks
  StepRuns PoolMembers

/-- A connect to the focus is out, or has a connection that the pool has not taken yet. -/
def opens (key : String) (f : Flight) : Bool :=
  match f.task, f.answer with
  | .connect _ _, some (.error _) => false
  | .connect other _, _ => other == key
  | _, _ => false

/-- The focus is connected, or is our own: our handle opens that, or has taken it over. -/
def isOpen (p : MediaPool) (key : String) : Bool :=
  p.ownConnectionKey == some key || (p.pool.lookup key).any (·.state.isUp)

/-- One connect is out to each focus, or one connection to it is open. -/
def OneEach (s : System) : Prop :=
  ∀ key, s.flights.countP (opens key) + (isOpen s.pool key).toNat ≤ 1

def stateOf (p : MediaPool) (key : String) : Option ConnState :=
  (p.pool.lookup key).map (·.state)

/-- The result of a connect changes only the entry that started it. -/
def Taken (s : System) (a : Action) : Prop :=
  ∀ t ∈ step s a, ∀ i takeOver f key attempt, a = .deliver i takeOver →
    s.flights[i]? = some f → f.task = .connect key attempt →
      stateOf t.pool key ≠ stateOf s.pool key → s.births key = f.birth

/-- A snapshot asks for a focus whose entry is gone while a connect to it is out. -/
def reopens (s : System) : Action → Bool
  | .owner (.applySnapshot snapshot) _ => s.flights.any fun f =>
      match f.task with
      | .connect key _ => (s.pool.pool.lookup key).isNone &&
          ({ s.pool with membersSnapshot := snapshot }.desired.lookup key).isSome
      | _ => false
  | _ => false

/-- No focus is opened again while a connect to it is out. -/
def Settled (s : System) (a : Action) : Prop := reopens s a = false

instance (s : System) (a : Action) : Decidable (Settled s a) := inferInstanceAs (Decidable (_ = _))

/-- The connects among the tasks. -/
def connectsOf (flights : List Flight) : List (String × ℕ) :=
  flights.filterMap fun f => connectOf f.task

/-- What holds of a pool with the connects it has started. -/
structure Inv (s : System) : Prop where
  peers : Peers (fun _ => True) (connectsOf s.flights) s.pool
  entries : OwnEntries s.pool
  whole : Whole (ownSide s.pool)
  spawned : s.pool.spawned = []
  births : ∀ f ∈ s.flights, ∀ key attempt, f.task = .connect key attempt →
    (s.pool.pool.lookup key).isSome → s.births key = f.birth

section
variable {s t : System} {call : Call} {takeOver : Except TransportError Unit}
  {rest : List Flight} {lapsed : List (String × ℕ)}

theorem mem_connectsOf {flights : List Flight} {key : String} {attempt : ℕ} :
    (key, attempt) ∈ connectsOf flights ↔ ∃ f ∈ flights, f.task = .connect key attempt := by
  rw [connectsOf, List.mem_filterMap]
  refine exists_congr fun f => and_congr_right fun _ => ?_
  cases f.task <;> simp [connectOf]

theorem connectsOf_eq (flights : List Flight) :
    connectsOf flights = (flights.map Flight.task).filterMap connectOf := by
  rw [List.filterMap_map]
  rfl

theorem connectsOf_launch {tenure : ℕ} {births : String → ℕ} (tasks : List Spawned) :
    connectsOf (s.launch tenure births tasks) = tasks.filterMap connectOf := by
  rw [connectsOf_eq, task_launch]

theorem connectsOf_cutShort (message : Message) (rest : List Flight) :
    connectsOf (s.cutShort message rest) = connectsOf rest := by
  unfold System.cutShort
  split
  · split
    · rw [connectsOf, List.filterMap_map]
      refine List.filterMap_congr fun f _ => ?_
      dsimp only [Function.comp_apply]
      split_ifs <;> rfl
    · rfl
  · rfl

theorem free_of_delivered {flights : List Flight} {i : ℕ} {f : Flight} {key : String}
    {attempt : ℕ} (nodup : ((connectsOf flights).map Prod.fst).Nodup)
    (there : flights[i]? = some f) (task : f.task = .connect key attempt) :
    ∀ other, (key, other) ∉ connectsOf (flights.eraseIdx i) := by
  obtain ⟨bound, rfl⟩ := List.getElem?_eq_some_iff.mp there
  have split : (connectsOf (flights[i] :: flights.eraseIdx i)).Perm (connectsOf flights) :=
    (List.getElem_cons_eraseIdx_perm bound).filterMap _
  have nodup := (split.map Prod.fst).nodup_iff.mpr nodup
  rw [connectsOf, List.filterMap_cons, task] at nodup
  exact fun other out => (List.nodup_cons.mp nodup).1 (List.mem_map.mpr ⟨(key, other), out, rfl⟩)

theorem connectsOf_sublist {flights : List Flight} (sub : rest.Sublist flights) :
    (connectsOf rest).Sublist (connectsOf flights) := sub.filterMap _

/-- What a call finds. -/
theorem Inv.before (inv : Inv s) (sub : (connectsOf rest).Sublist (connectsOf s.flights)) :
    Peers (fun key => ∃ entry, s.pool.pool.lookup key = some entry ∧ entry.isOwn = false)
      (connectsOf rest) s.pool := by
  have now_ {key : String} {attempt : ℕ} (there : (key, attempt) ∈ connects (connectsOf rest) s.pool) :
      (key, attempt) ∈ connects (connectsOf s.flights) s.pool := by
    rw [connects, inv.spawned] at there ⊢
    simpa using sub.subset (by simpa using there)
  refine ⟨⟨?_, fun there => inv.peers.peer (now_ there), fun there => inv.peers.waits (now_ there),
    fun {key attempt} there some_ => ?_⟩, inv.peers.toGrouped⟩
  · have each := inv.peers.each
    rw [connects, inv.spawned, List.filterMap_nil, List.append_nil] at each ⊢
    exact each.sublist (sub.map _)
  · obtain ⟨entry, found⟩ := Option.isSome_iff_exists.mp some_
    have out : (key, attempt) ∈ connects (connectsOf s.flights) s.pool :=
      List.mem_append_left _ (sub.subset there)
    exact ⟨entry, found, (inv.peers.waits out found).2⟩

theorem births_of_called (h : Called s call takeOver rest lapsed t) {key : String}
    {entry : ManagedConnection} (found : s.pool.pool.lookup key = some entry)
    (peer : entry.isOwn = false) : t.births key = s.births key := by
  have same : reborn s.pool (s.left call takeOver) key = false := by
    unfold reborn
    rw [found]
    cases (s.left call takeOver).pool.lookup key <;> simp [peer]
  rw [h.births, if_neg (Bool.eq_false_iff.mp same)]

theorem Inv.called (inv : Inv s) (h : Called s call takeOver rest lapsed t)
    (sub : (connectsOf rest).Sublist (connectsOf s.flights))
    (apart : overtakes s.pool call = false)
    (free : ∀ key attempt result, call = .handle (.connectFinished key attempt result) →
      ∀ other, (key, other) ∉ connectsOf rest)
    (unopened : ∀ snapshot, call = .applySnapshot snapshot → ∀ key attempt,
      (key, attempt) ∈ connectsOf rest → s.pool.pool.lookup key = none →
        { s.pool with membersSnapshot := snapshot }.desired.lookup key = none) : Inv t := by
  obtain ⟨move, entries⟩ := h.does inv.entries inv.whole apart
  have atStart : connects (connectsOf rest) s.pool = connectsOf rest := by
    rw [connects, inv.spawned, List.filterMap_nil, List.append_nil]
  have performed := @Peers.perform _ _ _ (inv.before sub) inv.entries ⟨call, s.now, takeOver⟩ h.may
    (fun key attempt result is_call other out => free key attempt result is_call other
      (atStart ▸ out))
    (fun snapshot is_call key is_asked none_ attempt out => by
      rw [unopened snapshot is_call key attempt (atStart ▸ out) none_] at is_asked
      cases is_asked)
  have out : connectsOf t.flights = connects (connectsOf rest) (s.left call takeOver) := by
    rw [h.flights, connectsOf, List.filterMap_append]
    exact congrArg _ (connectsOf_launch _)
  have now_ : connects (connectsOf t.flights) t.pool =
      connects (connectsOf rest) (s.left call takeOver) := by
    rw [connects, out, h.pool]
    exact List.append_nil _
  refine ⟨⟨⟨now_ ▸ performed.each, fun there => ?_, fun there found => ?_, fun _ _ => trivial⟩, ?_⟩,
    ?_, ?_, ?_, fun f there key attempt task some_ => ?_⟩
  · rw [h.pool]
    exact performed.peer (now_ ▸ there)
  · rw [h.pool] at found
    exact performed.waits (now_ ▸ there) found
  · rw [h.pool]
    exact performed.toGrouped.of_same rfl rfl rfl rfl
  · rw [h.pool]
    exact entries.of_same rfl rfl
  · have whole := move.whole inv.whole
    rw [h.side]
    exact whole
  · rw [h.pool]
  · have some_ : ((s.left call takeOver).pool.lookup key).isSome := by
      rw [h.pool] at some_
      exact some_
    obtain before | launched := h.mem_flights there
    · obtain ⟨entry, found, peer⟩ := performed.found
        (mem_connectsOf.mpr ⟨f, before, task⟩) some_
      obtain ⟨g, earlier, same⟩ := h.rest f before
      rw [births_of_called h found peer, same.birth]
      exact inv.births g earlier key attempt (same.task ▸ task) (Option.isSome_of_mem found)
    · obtain ⟨-, -, -, -, -, -, birth⟩ := mem_launch launched
      exact (birth key attempt task).symm

theorem inv_start (config : PoolConfig) (now : ℕ) : Inv (start config now) where
  peers :=
    { each := List.nodup_nil
      peer := fun there => nomatch there
      waits := fun there => nomatch there
      found := fun there => nomatch there
      asked := fun _ key is_asked => nomatch is_asked
      idle := fun found => nomatch found }
  entries := .new config
  whole := by simp [Whole, ownSide, start, MediaPool.new, MediaPool.ownEntry]
  spawned := rfl
  births _ there := nomatch there

theorem Inv.quiet (inv : Inv s) (pool : t.pool = s.pool) (births : t.births = s.births)
    (flights : t.flights.map Flight.task = s.flights.map Flight.task)
    (same : ∀ f ∈ t.flights, ∃ g ∈ s.flights, SameTask g f) : Inv t where
  peers := by
    rw [connectsOf_eq, flights, ← connectsOf_eq, pool]
    exact inv.peers
  entries := pool ▸ inv.entries
  whole := pool ▸ inv.whole
  spawned := pool ▸ inv.spawned
  births f there key attempt task some_ := by
    obtain ⟨g, before, same⟩ := same f there
    rw [births, same.birth]
    exact inv.births g before key attempt (same.task ▸ task) (pool ▸ some_)

theorem inv_step {a : Action} (inv : Inv s) (settled : Settled s a) (next : step s a = some t) :
    Inv t := by
  obtain ⟨ms, rfl, rfl⟩ | ⟨i, result, f, rfl, there, -, rfl⟩ | ⟨call, takeOver, rfl, may, called⟩ |
    ⟨i, takeOver, f, message, rfl, delivered⟩ |
    ⟨i, event, takeOver, f, connection, rfl, happened⟩ := step_cases next
  · exact inv.quiet rfl rfl rfl fun f there => ⟨f, there, .refl f⟩
  · refine inv.quiet rfl rfl ?_ fun g set => ?_
    · obtain ⟨bound, rfl⟩ := List.getElem?_eq_some_iff.mp there
      have mapped : i < (s.flights.map Flight.task).length := by rwa [List.length_map]
      rw [List.map_set, ← List.getElem_map (h := mapped) Flight.task]
      exact List.set_getElem_self mapped
    · obtain before | rfl := List.mem_or_eq_of_mem_set set
      · exact ⟨g, before, .refl g⟩
      · exact ⟨f, List.mem_of_getElem? there, rfl, rfl, rfl, rfl, rfl⟩
  · have message (message : Message) : call ≠ .handle message := by
      rintro rfl
      cases may
    refine inv.called called (.refl _) ?_ (fun _ _ _ is_call => absurd is_call (message _)) ?_
    · unfold overtakes
      split
      · exact absurd rfl (message _)
      · rfl
    · rintro snapshot rfl key attempt out none_
      obtain ⟨f, there, task⟩ := mem_connectsOf.mp out
      by_contra is_asked
      rw [← Ne, Option.ne_none_iff_isSome] at is_asked
      have again : reopens s (.owner (.applySnapshot snapshot) takeOver) = true := by
        refine List.any_eq_true.mpr ⟨f, there, ?_⟩
        rw [task]
        dsimp only
        rw [none_, Bool.and_eq_true]
        exact ⟨rfl, is_asked⟩
      exact Bool.false_ne_true (settled.symm.trans again)
  · have there := delivered.there
    refine inv.called delivered.called ?_ ?_ (fun key attempt result is_call other => ?_)
      fun _ is_call => by cases is_call
    · rw [connectsOf_cutShort]
      exact connectsOf_sublist (List.eraseIdx_sublist _ _)
    · unfold overtakes
      split
      · next key attempt result is_call =>
          cases is_call
          have out : (key, attempt) ∈ connects (connectsOf s.flights) s.pool :=
            List.mem_append_left _ (mem_connectsOf.mpr ⟨f, List.mem_of_getElem? there,
              (connect_of_message delivered.sends).1⟩)
          rw [beq_false_of_ne (inv.peers.peer out), Bool.false_and]
      · rfl
    · cases is_call
      have each := inv.peers.each
      rw [connects, inv.spawned, List.filterMap_nil, List.append_nil] at each
      rw [connectsOf_cutShort]
      exact free_of_delivered each there (connect_of_message delivered.sends).1 other
  · refine inv.called happened.called (.refl _) rfl (fun _ _ _ is_call => by cases is_call)
      fun _ is_call => by cases is_call

theorem connect_of_opens {key : String} {f : Flight} (is_open : opens key f) :
    ∃ attempt, f.task = .connect key attempt := by
  grind [opens]

theorem countP_opens_le (flights : List Flight) (key : String) :
    flights.countP (opens key) ≤ ((connectsOf flights).map Prod.fst).count key := by
  rw [connectsOf, List.map_filterMap, List.count_filterMap]
  refine List.countP_mono_left fun f _ is_open => ?_
  obtain ⟨attempt, task⟩ := connect_of_opens is_open
  simp [task, connectOf]

theorem Inv.closed (inv : Inv s) {key : String} (is_open : isOpen s.pool key) (attempt : ℕ) :
    (key, attempt) ∉ connectsOf s.flights := by
  intro there
  have out : (key, attempt) ∈ connects (connectsOf s.flights) s.pool :=
    List.mem_append_left _ there
  rw [isOpen, Bool.or_eq_true, beq_iff_eq, Option.any_eq_true] at is_open
  obtain is_own | ⟨entry, found, up⟩ := is_open
  · exact inv.peers.peer out is_own
  · rw [(inv.peers.waits out found).1] at up
    cases up

theorem Inv.oneEach (inv : Inv s) : OneEach s := by
  intro key
  have each := inv.peers.each
  rw [connects, inv.spawned, List.filterMap_nil, List.append_nil] at each
  have most := (countP_opens_le s.flights key).trans (List.nodup_iff_count_le_one.mp each key)
  cases open_ : isOpen s.pool key with
  | false => exact most
  | true =>
      have none_ : s.flights.countP (opens key) = 0 := by
        refine List.countP_eq_zero.mpr fun f there is_open => ?_
        obtain ⟨attempt, task⟩ := connect_of_opens is_open
        exact inv.closed open_ attempt (mem_connectsOf.mpr ⟨f, there, task⟩)
      rw [none_]
      exact Nat.le_refl _

/-- The entry whose connect has answered is the one that started it. -/
theorem taken_step {a : Action} (inv : Inv s) : Taken s a := by
  rintro t next i takeOver f key attempt rfl there task changed
  obtain ⟨_, is_tick, -⟩ | ⟨_, _, _, is_answer, -⟩ | ⟨_, _, is_call, -⟩ |
    ⟨_, _, g, message, is_deliver, delivered⟩ | ⟨_, _, _, _, _, is_event, -⟩ := step_cases next
  · cases is_tick
  · cases is_answer
  · cases is_call
  · cases is_deliver
    cases there.symm.trans delivered.there
    refine inv.births f (List.mem_of_getElem? there) key attempt task ?_
    by_contra none_
    rw [Option.isSome_iff_ne_none, not_not] at none_
    obtain ⟨result, rfl⟩ := message_of_connect task delivered.sends
    have left : (s.left (.handle (.connectFinished key attempt result)) takeOver).pool =
        s.pool.pool := by
      change (s.pool.connectFinished key attempt result s.now takeOver).pool = s.pool.pool
      unfold MediaPool.connectFinished
      rw [none_]
      exact (calm_closeStray result).beside.pool
    refine changed ?_
    rw [delivered.called.pool, stateOf, stateOf]
    exact congrArg _ (congrArg (AList.lookup key) left)
  · cases is_event

end

/-- As long as no focus is opened again while a connect to it is out, each focus has one
connect that is out or one connection that is open, and the result of a connect is taken by
the entry that started it. -/
theorem one_connect_per_focus (config : PoolConfig) (now : ℕ) (as : List Action)
    (settled : Admissible step Settled (start config now) as) :
    Always step OneEach (start config now) as ∧
      Admissible step Taken (start config now) as :=
  ⟨always_of_admissible (fun _ _ _ => inv_step) (fun _ => Inv.oneEach) (inv_start config now)
      settled,
    settled.of_invariant (fun _ _ _ => inv_step) (fun _ _ inv _ => taken_step inv)
      (inv_start config now)⟩

/-- Bob comes and is connected to. -/
theorem one_connect_per_focus_up :
    Always step OneEach (start aliceConfig 0)
        [.owner (.applySnapshot [bobOnB]) (.ok ()), .answer 0 (.ok 20), .deliver 0 (.ok ())] ∧
      Admissible step Taken (start aliceConfig 0)
        [.owner (.applySnapshot [bobOnB]) (.ok ()), .answer 0 (.ok 20), .deliver 0 (.ok ())] :=
  one_connect_per_focus aliceConfig 0 _ (by decide +kernel)

/-- Bob comes, goes until his focus is closed, and comes again: two connects are out. -/
theorem two_connects_to_a_focus :
    ¬ ∀ (config : PoolConfig) (now : ℕ) (as : List Action),
      Always step OneEach (start config now) as ∧
        Admissible step Taken (start config now) as := by
  intro h
  have one := (h aliceConfig 0 [.owner (.applySnapshot [bobOnB]) (.ok ()),
    .owner (.applySnapshot []) (.ok ()), .tick 10000, .deliver 1 (.ok ()),
    .owner (.applySnapshot [bobOnB]) (.ok ())]).1.mono fun s one => one "https://b.x"
  revert one
  decide +kernel

end MatrixRtc.ConnectResults

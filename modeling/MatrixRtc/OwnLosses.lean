import MatrixRtc.TaskSteps
import MatrixRtc.PoolMembers

/-!
# When our own focus is given up

A host watches when our media was last not lost, whether our own focus was ever up, and
whether a fresh token was asked for since. Our own focus is given up once, when it refuses
us or after a loss as long as the budget, as long as no result of a connect to a peer's
focus is taken for that of an attempt at our own.
-/
namespace MatrixRtc.OwnLosses
open MemberEvents MediaTransports Tables MediaPools PoolFrames OwnFocus PoolTasks StepRuns PoolMembers

/-- Our own focus is up, and none of the `links` that are being re-established is its. -/
def carried (v : OwnSide) (links : List (String × ℕ)) : Bool :=
  match v.key, v.entry with
  | some key, some (.up _, generation) => !links.contains (key, generation)
  | _, _ => false

/-- Our media is to be carried and is not. -/
def lost (v : OwnSide) (links : List (String × ℕ)) : Bool := v.own.isSome && !carried v links

def isUp (v : OwnSide) : Bool := v.entry.any (·.1.isUp)

/-- An attempt that asks for a fresh token. -/
def asksFresh : Spawned → Bool
  | .ownAttempt _ _ freshToken => freshToken
  | _ => false

/-- The call that an action makes of the pool. -/
def callOf (s : System) : Action → Option Call
  | .tick _ | .answer _ _ => none
  | .owner call _ => some call
  | .deliver i _ => s.flights[i]?.bind fun f => (f.message s.now).map .handle
  | .event i event _ => s.flights[i]?.bind fun f => f.connection.map fun connection =>
      .handle (.connection connection.1 connection.2 event)

/-- The links that are being re-established after a call. -/
def linksAfter (links : List (String × ℕ)) : Call → List (String × ℕ)
  | .handle (.connection key generation .reconnecting) => (key, generation) :: links
  | .handle (.connection key generation .reconnected) => links.filter (· != (key, generation))
  | _ => links

/-- A pool and its tasks, and who watches them: `intactAt` is when our media was last not
lost, and `intactTasks` how many tasks had been started by then. -/
structure Watched where
  system : System
  links : List (String × ℕ)
  intactAt : ℕ
  intactTasks : ℕ
  wasUp : Bool
  asked : Bool

/-- What is seen of the state a step leads to. -/
def Watched.see (w : Watched) (links : List (String × ℕ)) (t : System) : Watched :=
  let lost := lost (ownSide t.pool) links
  { system := t
    links := links
    intactAt := if lost then w.intactAt else t.now
    intactTasks := if lost then w.intactTasks else t.started
    wasUp := w.wasUp || isUp (ownSide t.pool)
    asked := lost && (w.asked ||
      t.flights.any fun f => w.system.started ≤ f.serial && asksFresh f.task) }

def step (w : Watched) (a : Action) : Option Watched :=
  (PoolTasks.step w.system a).map
    (w.see (((callOf w.system a).map (linksAfter w.links)).getD w.links))

def start (config : PoolConfig) (now : ℕ) : Watched :=
  { system := PoolTasks.start config now
    links := []
    intactAt := now
    intactTasks := 0
    wasUp := false
    asked := false }

/-- Our media has been lost for the whole of the budget. -/
def Spent (w : Watched) : Prop :=
  lost (ownSide w.system.pool) w.links ∧
    w.intactAt + w.system.pool.ownReconnectBudget ≤ w.system.now

/-- An attempt at our own focus has failed, with this error. -/
def Fails (w : Watched) (a : Action) (error : TransportError) : Prop :=
  ∃ i takeOver f connection attempt freshToken, a = .deliver i takeOver ∧
    w.system.flights[i]? = some f ∧ f.task = .ownAttempt connection attempt freshToken ∧
      f.answer = some (.error error)

/-- Our own focus may be given up for this reason. -/
def Due (w : Watched) (a : Action) : OwnConnectionLoss → Prop
  | .refused => ∃ error, Fails w a error ∧ ∃ message, error = .refused message ∨
      error = .tokenRejected message ∧ (w.asked ∨ Spent w)
  | .budget => Spent w ∧ w.wasUp
  | .neverConnected => Spent w ∧ w.wasUp = false

def isTimer : Spawned → Bool
  | .retryConnect _ _ _ | .closeIfIdle _ _ _ | .applyConstraints _ _ _ _ | .ownRetry _ _
  | .ownBudget _ _ | .ownFinalAttempt _ _ | .ownFallback _ _ => true
  | .connect _ _ | .close _ | .forward _ _ | .constrain _ _ _ _ | .ownAttempt _ _ _ => false

/-- Where a timer fires, it was started since our media was last not lost: it is one of the
tasks that were started after that. -/
def Current (w : Watched) (a : Action) : Prop :=
  ∀ i takeOver f, a = .deliver i takeOver → w.system.flights[i]? = some f → isTimer f.task →
    w.intactAt ≤ f.since ∧ w.intactTasks ≤ f.serial

/-- Each step that gives our own focus up is due to, and by no timer of an earlier loss. -/
def Justified (w : Watched) (a : Action) : Prop :=
  ∀ t ∈ step w a, ∀ reason message,
    .ownConnectionLost reason message ∈ t.system.reported.drop w.system.reported.length →
      Due w a reason ∧ Current w a

def isLoss : PoolEvent → Bool
  | .ownConnectionLost _ _ => true
  | _ => false

/-- Our own focus was given up once at most. -/
def Once (w : Watched) : Prop := (w.system.reported.filter isLoss).length ≤ 1

/-- No result of a connect to a peer's focus comes while an attempt of that number is out to
the same focus as our own. -/
def Apart (w : Watched) (a : Action) : Prop :=
  ∀ call ∈ callOf w.system a, overtakes w.system.pool call = false

instance (w : Watched) (a : Action) : Decidable (Apart w a) :=
  inferInstanceAs (Decidable (∀ _ ∈ _, _))

/-- What a watcher knows of our own side. -/
structure Known (v : OwnSide) (now intactAt : ℕ) (wasUp asked : Bool)
    (links over_ : List (String × ℕ)) : Prop where
  whole : Whole v
  unlost : v.own.isSome → v.ownLost = false
  intact : intactAt ≤ now
  since : ∀ own since, v.own = some own → own.lostSince = some since →
    intactAt ≤ since ∧ since ≤ now ∧ carried v links = false
  shut : v.closed → ∀ own, v.own = some own → own.lostSince = none
  spent : v.closed = false → ∀ own, v.own = some own → own.budgetSpent →
    ∃ since, own.lostSince = some since ∧ since + v.budget ≤ now
  down : v.closed = false → ∀ own, v.own = some own → isUp v = false →
    ∃ since, own.lostSince = some since
  tokens : v.closed = false → ∀ own, v.own = some own → own.tokenRefetched →
    (∃ since, own.lostSince = some since) ∧ (own.refetchNext ∨ asked)
  connecting : ∀ own attempt generation, v.own = some own →
    v.entry = some (.connecting attempt, generation) → own.refetchNext = false
  up : ∀ own, v.own = some own → own.everUp = wasUp
  seen : isUp v → wasUp
  fresh : v.own = none → v.ownLost = false → wasUp = false
  ended : ∀ key state generation, v.key = some key → v.entry = some (state, generation) →
    state.isUp = false → generation = 0 ∨ (key, generation) ∈ over_

/-- What is known of a call beside what it does: what it leaves of the connections, that the
end of a budget comes at its end, and that a link that is back was of a connection. -/
structure Timely (v : OwnSide) (now : ℕ) (call : Call) (over_ over' : List (String × ℕ)) :
    Prop where
  kept : ∀ connection ∈ over_, connection ∈ over'
  ends : ∀ key generation, ends call key generation → (key, generation) ∈ over'
  budget : ∀ own since, v.own = some own → call = .handle (.ownBudget own.epoch) →
    own.lostSince = some since → since + v.budget ≤ now
  linked : ∀ key generation, call = .handle (.connection key generation .reconnected) →
    generation ≠ 0 ∧ (key, generation) ∉ over_

section
variable {v w : OwnSide} {now intactAt : ℕ} {wasUp asked : Bool}
  {links_ over_ over' : List (String × ℕ)} {call : Call}

/-- A link that was being re-established still is, unless the call is about its return. -/
theorem carried_linksAfter (broken : carried v links_ = false) (unlinked : links v call = false) :
    carried v (linksAfter links_ call) = false := by
  unfold carried at broken ⊢
  split
  · next key connection generation is_key entry =>
      rw [is_key, entry] at broken
      simp only [Bool.not_eq_false', List.contains_iff_mem] at broken ⊢
      unfold linksAfter
      split
      · exact .tail _ broken
      · next key' generation' =>
          refine List.mem_filter.mpr ⟨broken, ?_⟩
          simp only [bne_iff_ne, ne_eq, Prod.mk.injEq, not_and]
          rintro rfl rfl
          simp [links, is_key, entry] at unlinked
      · exact broken
  · rfl

theorem carried_reconnecting {key : String} {state : ConnState} {generation : ℕ}
    (is_key : v.key = some key) (entry : v.entry = some (state, generation)) :
    carried v ((key, generation) :: links_) = false := by
  unfold carried
  rw [is_key, entry]
  cases state <;> simp

theorem lostSince_begun (own : OwnRecovery) (now : ℕ) :
    ∃ since, (begun own now).lostSince = some since := by
  unfold begun
  split_ifs with lost
  · exact Option.isSome_iff_exists.mp lost
  · exact ⟨now, rfl⟩

theorem since_move (k : Known v now intactAt wasUp asked links_ over_)
    (m : OwnMove now v call w) : ∀ own since, w.own = some own → own.lostSince = some since →
      intactAt ≤ since ∧ since ≤ now ∧ carried w (linksAfter links_ call) = false := by
  have intact := k.intact
  have old := k.since
  cases m with
  | still unlinked =>
      intro own since is_own lost
      obtain ⟨after, before, broken⟩ := k.since own since is_own lost
      exact ⟨after, before, carried_linksAfter broken unlinked⟩
  | linkLost is_key entry is_own =>
      have broken : carried v ((_, _) :: links_) = false := carried_reconnecting is_key entry
      grind [OwnSide.lossBegins, begun, carried, linksAfter]
  | closed =>
      intro own since is_own lost
      obtain ⟨before, -, rfl⟩ := Option.map_eq_some_iff.mp is_own
      cases lost
  | began | down =>
      grind [OwnSide.attempt, OwnSide.lossBegins, begun, attempted, handed, carried]
  | adopted => grind [handed]
  | linkBack | connected | moved => grind [ended]
  | failed | refetched => grind [OwnSide.backOff, carried]
  | refused | spent | expired => grind [OwnSide.givenUp]
  | retried | lastAttempt => grind [OwnSide.attempt, attempted, carried]
  | budgetOver => grind [linksAfter, carried]

theorem shut_move (k : Known v now intactAt wasUp asked links_ over_)
    (m : OwnMove now v call w) : w.closed → ∀ own, w.own = some own → own.lostSince = none := by
  have old := k.shut
  have whole := k.whole
  unfold Whole at whole
  cases m with
  | still => exact old
  | closed => simp
  | began | linkLost | down => grind [OwnSide.attempt, OwnSide.lossBegins]
  | adopted => grind [handed]
  | linkBack | connected | moved => grind [ended]
  | failed | refetched => grind [OwnSide.backOff]
  | refused | spent | expired => grind [OwnSide.givenUp]
  | retried | lastAttempt => grind [OwnSide.attempt, attempted]
  | budgetOver => grind

theorem spent_move (k : Known v now intactAt wasUp asked links_ over_)
    (timely : Timely v now call over_ over') (m : OwnMove now v call w) :
    w.closed = false → ∀ own, w.own = some own → own.budgetSpent →
      ∃ since, own.lostSince = some since ∧ since + w.budget ≤ now := by
  have old := k.spent
  have budget := timely.budget
  cases m with
  | still => exact old
  | closed => intro shut; cases shut
  | began | linkLost | down => grind [OwnSide.attempt, OwnSide.lossBegins, begun, attempted, handed]
  | adopted => grind [handed]
  | linkBack | connected | moved => grind [ended]
  | failed | refetched => grind [OwnSide.backOff]
  | refused | spent | expired => grind [OwnSide.givenUp]
  | retried => grind [OwnSide.attempt, attempted]
  | lastAttempt is_own lost | budgetOver is_own lost =>
      obtain ⟨since, lost⟩ := Option.isSome_iff_exists.mp lost
      grind [OwnSide.attempt, attempted]

theorem down_move (k : Known v now intactAt wasUp asked links_ over_)
    (timely : Timely v now call over_ over') (m : OwnMove now v call w) :
    w.closed = false → ∀ own, w.own = some own → isUp w = false →
      ∃ since, own.lostSince = some since := by
  have old := k.down
  have ended_ := k.ended
  have linked := timely.linked
  cases m with
  | still => exact old
  | closed => intro shut; cases shut
  | began | linkLost | down =>
      rintro - _ ⟨⟩ -
      exact lostSince_begun _ now
  | adopted => grind [handed, isUp, ConnState.isUp]
  | linkBack => grind [ended, isUp]
  | connected | moved => grind [ended, isUp, ConnState.isUp]
  | failed | refetched => grind [OwnSide.backOff, isUp, ConnState.isUp]
  | refused | spent | expired => grind [OwnSide.givenUp]
  | retried => grind [OwnSide.attempt, attempted, isUp, ConnState.isUp]
  | lastAttempt is_own lost | budgetOver is_own lost =>
      obtain ⟨since, lost⟩ := Option.isSome_iff_exists.mp lost
      grind [OwnSide.attempt, attempted]

theorem tokens_move (k : Known v now intactAt wasUp asked links_ over_)
    (m : OwnMove now v call w) {fresh : Bool}
    (asks : ∀ connection attempt, .ownAttempt connection attempt true ∈ w.tasks → fresh) :
    w.closed = false → ∀ own, w.own = some own → own.tokenRefetched →
      (∃ since, own.lostSince = some since) ∧ (own.refetchNext ∨ asked ∨ fresh) := by
  have old := k.tokens
  have down := k.down
  have whole := k.whole
  unfold Whole at whole
  cases m with
  | still => grind
  | closed => intro shut; cases shut
  | began | linkLost | down =>
      grind [OwnSide.attempt, OwnSide.lossBegins, begun, attempted, handed]
  | adopted => grind [handed]
  | linkBack | connected | moved => grind [ended]
  | failed | refetched => grind [OwnSide.backOff, isUp, ConnState.isUp]
  | refused | spent | expired => grind [OwnSide.givenUp]
  | retried | lastAttempt => grind [OwnSide.attempt, attempted]
  | budgetOver => grind

theorem connecting_move (k : Known v now intactAt wasUp asked links_ over_)
    (m : OwnMove now v call w) : ∀ own attempt generation, w.own = some own →
      w.entry = some (.connecting attempt, generation) → own.refetchNext = false := by
  have old := k.connecting
  cases m with
  | still => grind
  | closed => grind
  | began | linkLost | down =>
      grind [OwnSide.attempt, OwnSide.lossBegins, begun, attempted, handed]
  | adopted => grind [handed]
  | linkBack | connected | moved => grind [ended]
  | failed | refetched => grind [OwnSide.backOff]
  | refused | spent | expired => grind [OwnSide.givenUp]
  | retried | lastAttempt => grind [OwnSide.attempt, attempted]
  | budgetOver => grind

theorem up_move (k : Known v now intactAt wasUp asked links_ over_)
    (m : OwnMove now v call w) : ∀ own, w.own = some own → own.everUp = (wasUp || isUp w) := by
  have old := k.up
  have seen := k.seen
  have fresh := k.fresh
  cases m with
  | still => grind
  | closed =>
      intro own is_own
      obtain ⟨before, was, rfl⟩ := Option.map_eq_some_iff.mp is_own
      exact (old before was).trans (Bool.or_false wasUp).symm
  | began | linkLost | down =>
      grind [OwnSide.attempt, OwnSide.lossBegins, begun, attempted, handed, isUp, ConnState.isUp]
  | adopted => grind [handed, isUp, ConnState.isUp]
  | linkBack | connected | moved => grind [ended, isUp, ConnState.isUp]
  | failed | refetched => grind [OwnSide.backOff, isUp, ConnState.isUp]
  | refused | spent | expired => grind [OwnSide.givenUp]
  | retried | lastAttempt => grind [OwnSide.attempt, attempted, isUp, ConnState.isUp]
  | budgetOver => grind [isUp]

theorem fresh_move (k : Known v now intactAt wasUp asked links_ over_)
    (m : OwnMove now v call w) : w.own = none → w.ownLost = false → (wasUp || isUp w) = false := by
  have seen := k.seen
  have fresh := k.fresh
  cases m with
  | still => grind
  | closed =>
      intro none_ unlost
      exact (Bool.or_false wasUp).trans (fresh (Option.map_eq_none_iff.mp none_) unlost)
  | began | linkLost | down => grind [OwnSide.attempt, OwnSide.lossBegins]
  | adopted | linkBack | connected | moved => grind
  | failed | refetched => grind [OwnSide.backOff]
  | refused | spent | expired => grind [OwnSide.givenUp]
  | retried | lastAttempt => grind [OwnSide.attempt]
  | budgetOver => grind

theorem ended_move (k : Known v now intactAt wasUp asked links_ over_)
    (timely : Timely v now call over_ over') (m : OwnMove now v call w) :
    ∀ key state generation, w.key = some key → w.entry = some (state, generation) →
      state.isUp = false → generation = 0 ∨ (key, generation) ∈ over' := by
  have old := k.ended
  have kept := timely.kept
  have ends_ := timely.ends
  cases m with
  | still => grind
  | closed => grind
  | began | linkLost | down => grind [OwnSide.attempt, OwnSide.lossBegins]
  | adopted | connected | moved => grind [ConnState.isUp]
  | linkBack => grind
  | failed | refetched => grind [OwnSide.backOff, ConnState.isUp]
  | refused | spent | expired => grind [OwnSide.givenUp]
  | retried | lastAttempt => grind [OwnSide.attempt, ConnState.isUp]
  | budgetOver => grind

theorem unlost_move (k : Known v now intactAt wasUp asked links_ over_)
    (m : OwnMove now v call w) : w.own.isSome → w.ownLost = false := by
  have old := k.unlost
  cases m with
  | still => grind
  | closed => grind
  | began | linkLost | down => grind [OwnSide.attempt, OwnSide.lossBegins]
  | adopted | connected | moved | linkBack => grind
  | failed | refetched => grind [OwnSide.backOff]
  | refused | spent | expired => grind [OwnSide.givenUp]
  | retried | lastAttempt => grind [OwnSide.attempt]
  | budgetOver => grind

/-- What is known of our own side after a call. -/
theorem Known.move (k : Known v now intactAt wasUp asked links_ over_)
    (timely : Timely v now call over_ over') (m : OwnMove now v call w) {fresh : Bool}
    (asks : ∀ connection attempt, .ownAttempt connection attempt true ∈ w.tasks → fresh) :
    Known w now (if lost w (linksAfter links_ call) then intactAt else now) (wasUp || isUp w)
      (lost w (linksAfter links_ call) && (asked || fresh)) (linksAfter links_ call) over' where
  whole := m.whole k.whole
  unlost := unlost_move k m
  intact := by
    split_ifs
    · exact k.intact
    · exact Nat.le_refl _
  since own since is_own lasts := by
    obtain ⟨after, before, broken⟩ := since_move k m own since is_own lasts
    have gone : lost w (linksAfter links_ call) = true := by simp [lost, is_own, broken]
    rw [if_pos gone]
    exact ⟨after, before, broken⟩
  shut := shut_move k m
  spent := spent_move k timely m
  down := down_move k timely m
  tokens opened own is_own refetched := by
    obtain ⟨⟨since, lasts⟩, next⟩ := tokens_move k m asks opened own is_own refetched
    obtain ⟨-, -, broken⟩ := since_move k m own since is_own lasts
    have gone : lost w (linksAfter links_ call) = true := by simp [lost, is_own, broken]
    refine ⟨⟨since, lasts⟩, next.imp_right fun asked => ?_⟩
    rw [gone, Bool.true_and, Bool.or_eq_true]
    exact asked
  connecting := connecting_move k m
  up := up_move k m
  seen up := by
    rw [Bool.or_eq_true]
    exact .inr up
  fresh := fresh_move k m
  ended := ended_move k timely m

theorem Known.taken (k : Known v now intactAt wasUp asked links_ over_) :
    Known { v with tasks := [], news := [] } now intactAt wasUp asked links_ over_ :=
  ⟨k.whole, k.unlost, k.intact, k.since, k.shut, k.spent, k.down, k.tokens, k.connecting, k.up,
    k.seen, k.fresh, k.ended⟩

/-- Where a loss is remembered, our media is lost. -/
theorem Known.is_lost (k : Known v now intactAt wasUp asked links_ over_) {own : OwnRecovery}
    {since : ℕ} (is_own : v.own = some own) (lasts : own.lostSince = some since) :
    lost v links_ = true := by
  simp [lost, is_own, (k.since own since is_own lasts).2.2]

/-- The loss that a timer was started for. -/
def lossOf : Spawned → Option ℕ
  | .ownBudget epoch _ | .ownFinalAttempt epoch _ => some epoch
  | _ => none

theorem epoch_move (m : OwnMove now v call w) {own own' : OwnRecovery} (is_own : v.own = some own)
    (is_own' : w.own = some own') : own.epoch ≤ own'.epoch ∧
      (own'.epoch = own.epoch → ∀ since, own'.lostSince = some since →
        own.lostSince = some since) := by
  cases m with
  | still => grind
  | closed => grind
  | began | linkLost | down => grind [OwnSide.attempt, OwnSide.lossBegins, begun, attempted]
  | adopted => grind
  | linkBack | connected | moved => grind [ended]
  | failed | refetched => grind [OwnSide.backOff]
  | refused | spent | expired => grind [OwnSide.givenUp]
  | retried | lastAttempt => grind [OwnSide.attempt, attempted]
  | budgetOver => grind

theorem task_move (m : OwnMove now v call w) (none_ : v.tasks = []) {task : Spawned}
    (there : task ∈ w.tasks) :
    (∀ epoch, lossOf task = some epoch → ∃ own, w.own = some own ∧ own.epoch = epoch) ∧
      (∀ epoch delay, task = .ownBudget epoch delay → delay = v.budget) ∧
        ∀ key, task ≠ .forward key 0 := by
  cases m with
  | still => grind
  | closed => grind
  | began | linkLost | down =>
      grind [OwnSide.attempt, OwnSide.lossBegins, begun, attempted, lossTasks, lossOf]
  | adopted | linkBack | connected | moved => grind
  | failed | refetched => grind [OwnSide.backOff, lossOf]
  | refused | spent | expired => grind [OwnSide.givenUp]
  | retried | lastAttempt => grind [OwnSide.attempt, attempted, lossOf]
  | budgetOver => grind [lossOf]

theorem idle_move (m : OwnMove now v call w) (none_ : w.own = none) (unlost : w.ownLost = false) :
    v.own = none ∧ v.ownLost = false ∧ w.tasks = v.tasks := by
  cases m with
  | still => grind
  | closed => exact ⟨Option.map_eq_none_iff.mp none_, unlost, rfl⟩
  | began | linkLost | down => grind [OwnSide.attempt, OwnSide.lossBegins]
  | adopted | linkBack | connected | moved => grind
  | failed | refetched => grind [OwnSide.backOff]
  | refused | spent | expired => grind [OwnSide.givenUp]
  | retried | lastAttempt => grind [OwnSide.attempt]
  | budgetOver => grind

theorem budget_move (m : OwnMove now v call w) : w.budget = v.budget := by
  cases m <;> rfl

theorem news_move (m : OwnMove now v call w) (none_ : v.news = [])
    (unlost : v.own.isSome → v.ownLost = false) : (v.ownLost → w.ownLost) ∧
      (w.news.filter isLoss).length = if w.ownLost && !v.ownLost then 1 else 0 := by
  cases m with
  | still => simp [none_]
  | closed => simp [none_]
  | began | linkLost | down => simp [OwnSide.attempt, OwnSide.lossBegins, none_]
  | adopted | linkBack | connected => simp [none_]
  | moved => simp [none_, isLoss]
  | failed | refetched => simp [OwnSide.backOff, none_]
  | refused _ is_own | spent _ _ _ is_own | expired _ is_own =>
      simp [OwnSide.givenUp, none_, List.filter_cons, isLoss, unlost (Option.isSome_of_mem is_own)]
  | retried | lastAttempt => simp [OwnSide.attempt, none_]
  | budgetOver => simp [none_]

/-- Why our own focus is given up. -/
theorem due_move (k : Known v now intactAt wasUp asked links_ over_) (m : OwnMove now v call w)
    (none_ : v.news = []) {reason : OwnConnectionLoss} {message : String}
    (there : .ownConnectionLost reason message ∈ w.news) :
    (reason = .refused ∧ ∃ attempt error,
        call = .handle (.ownConnectFinished attempt (.error error)) ∧
          (error = .refused message ∨ error = .tokenRejected message ∧
            (asked ∨ lost v links_ ∧ intactAt + v.budget ≤ now))) ∨
      (lost v links_ ∧ intactAt + v.budget ≤ now) ∧
        reason = (if wasUp then .budget else .neverConnected) ∧
          ((∃ attempt result, call = .handle (.ownConnectFinished attempt result)) ∨
            ∃ own since, v.own = some own ∧ own.lostSince = some since ∧
              call = .handle (.ownFinalAttemptExpired own.epoch)) := by
  -- A loss that took the whole budget, and what it was called.
  have over_budget {own : OwnRecovery} (is_own : v.own = some own) (opened : v.closed = false)
      (spent : own.budgetSpent) : (lost v links_ ∧ intactAt + v.budget ≤ now) ∧
        spentReason own = if wasUp then .budget else .neverConnected := by
    obtain ⟨since, lasts, long⟩ := k.spent opened own is_own spent
    obtain ⟨after, -, -⟩ := k.since own since is_own lasts
    refine ⟨⟨k.is_lost is_own lasts, by omega⟩, ?_⟩
    rw [spentReason, k.up own is_own]
  have opened (entry : v.entry.isSome) : v.closed = false := (k.whole.mp entry).2
  cases m with
  | still | closed => simp [none_] at there
  | began | linkLost | down => simp [OwnSide.attempt, OwnSide.lossBegins, none_] at there
  | adopted | linkBack | connected | moved => simp [none_] at there
  | failed | refetched => simp [OwnSide.backOff, none_] at there
  | retried | lastAttempt => simp [OwnSide.attempt, none_] at there
  | budgetOver => simp [none_] at there
  | refused entry is_own why =>
      simp only [OwnSide.givenUp, none_, List.nil_append, List.mem_singleton,
        PoolEvent.ownConnectionLost.injEq] at there
      obtain ⟨rfl, rfl⟩ := there
      have opened := opened (Option.isSome_of_mem entry)
      refine .inl ⟨rfl, _, _, rfl, why.imp_right fun rejected => ⟨rejected.1, ?_⟩⟩
      obtain spent | refetched := rejected.2
      · exact .inr (over_budget is_own opened spent).1
      · have asked := (k.tokens opened _ is_own refetched).2
        rw [k.connecting _ _ _ is_own entry] at asked
        exact .inl (asked.resolve_left Bool.false_ne_true)
  | spent error _ entry is_own spent =>
      simp only [OwnSide.givenUp, none_, List.nil_append, List.mem_singleton,
        PoolEvent.ownConnectionLost.injEq] at there
      obtain ⟨rfl, rfl⟩ := there
      obtain ⟨long, reason⟩ := over_budget is_own (opened (Option.isSome_of_mem entry)) spent
      exact .inr ⟨long, reason, .inl ⟨_, _, rfl⟩⟩
  | expired _ is_own spent lasts =>
      simp only [OwnSide.givenUp, none_, List.nil_append, List.mem_singleton,
        PoolEvent.ownConnectionLost.injEq] at there
      obtain ⟨rfl, rfl⟩ := there
      obtain ⟨since, lasts⟩ := Option.isSome_iff_exists.mp lasts
      have opened : v.closed = false := by
        by_contra shut
        rw [k.shut (Bool.not_eq_false _ ▸ shut) _ is_own] at lasts
        cases lasts
      obtain ⟨long, reason⟩ := over_budget is_own opened spent
      exact .inr ⟨long, reason, .inr ⟨_, since, is_own, lasts, rfl⟩⟩

end

/-- What holds of a pool that is watched. -/
structure Inv (w : Watched) : Prop where
  known : Known (ownSide w.system.pool) w.system.now w.intactAt w.wasUp w.asked w.links
    w.system.over_
  entries : OwnEntries w.system.pool
  spawned : w.system.pool.spawned = []
  out : w.system.pool.out = []
  once : (w.system.reported.filter isLoss).length = if w.system.pool.ownLost then 1 else 0
  counted : w.intactTasks ≤ w.system.started
  timers : ∀ f ∈ w.system.flights, ∀ epoch, lossOf f.task = some epoch →
    f.since ≤ w.system.now ∧ (w.system.pool.own = none → w.system.pool.ownLost) ∧
      ∀ own, w.system.pool.own = some own → epoch ≤ own.epoch ∧
        (epoch = own.epoch → ∀ since, own.lostSince = some since →
          since ≤ f.since ∧ w.intactTasks ≤ f.serial)
  budgets : ∀ f ∈ w.system.flights, ∀ epoch delay, f.task = .ownBudget epoch delay →
    delay = w.system.pool.ownReconnectBudget
  numbered : ∀ f ∈ w.system.flights, ∀ key, f.task ≠ .forward key 0

section
variable {w : Watched} {t : System} {call : Call} {takeOver : Except TransportError Unit}
  {rest : List Flight} {lapsed : List (String × ℕ)}

theorem inv_start (config : PoolConfig) (now : ℕ) : Inv (start config now) where
  known :=
    { whole := by simp [Whole, ownSide, start, PoolTasks.start, MediaPool.new, MediaPool.ownEntry]
      unlost := fun _ => rfl
      intact := Nat.le_refl _
      since := fun _ _ is_own => nomatch is_own
      shut := fun _ _ is_own => nomatch is_own
      spent := fun _ _ is_own => nomatch is_own
      down := fun _ _ is_own => nomatch is_own
      tokens := fun _ _ is_own => nomatch is_own
      connecting := fun _ _ _ is_own => nomatch is_own
      up := fun _ is_own => nomatch is_own
      seen := by simp [isUp, ownSide, start, PoolTasks.start, MediaPool.new, MediaPool.ownEntry]
      fresh := fun _ _ => rfl
      ended := by simp [ownSide, start, PoolTasks.start, MediaPool.new, MediaPool.ownEntry] }
  entries := .new config
  spawned := rfl
  out := rfl
  once := rfl
  counted := Nat.le_refl _
  timers _ there := nomatch there
  budgets _ there := nomatch there
  numbered _ there := nomatch there

/-- A call that does one of the things there are to do about our own focus. -/
theorem Inv.called (inv : Inv w) (h : Called w.system call takeOver rest lapsed t)
    (apart : overtakes w.system.pool call = false)
    (timely : Timely (ownSide w.system.pool) w.system.now call w.system.over_ t.over_) :
    Inv (w.see (linksAfter w.links call) t) := by
  obtain ⟨move, entries⟩ := h.does inv.entries inv.known.whole apart
  have noTasks : (ownSide w.system.pool).tasks = [] := by simp [ownSide, inv.spawned]
  have noNews : (ownSide w.system.pool).news = [] := by simp [ownSide, inv.out]
  have mem_tasks {task : Spawned} (there : task ∈ (w.system.left call takeOver).spawned)
      (own : ofOwnSide task) : task ∈ (ownSide (w.system.left call takeOver)).tasks :=
    List.mem_filter.mpr ⟨there, own⟩
  have budget : t.pool.ownReconnectBudget = w.system.pool.ownReconnectBudget := by
    rw [h.pool]
    exact budget_move move
  have mem_flights {f : Flight} (there : f ∈ t.flights) :
      (∃ g ∈ w.system.flights, SameTask g f) ∨
        f.since = w.system.now ∧ w.system.started ≤ f.serial ∧ (ofOwnSide f.task →
          f.task ∈ (ownSide (w.system.left call takeOver)).tasks) := by
    obtain before | launched := h.mem_flights there
    · exact .inl (h.rest f before)
    · obtain ⟨task, serial, since, -⟩ := mem_launch launched
      exact .inr ⟨since, serial, mem_tasks task⟩
  have known : Known (ownSide t.pool) t.now (w.see (linksAfter w.links call) t).intactAt
      (w.see (linksAfter w.links call) t).wasUp (w.see (linksAfter w.links call) t).asked
      (linksAfter w.links call) t.over_ := by
    have asks (connection attempt : ℕ) (there : .ownAttempt connection attempt true ∈
        (ownSide (w.system.left call takeOver)).tasks) :
        (t.flights.any fun f => w.system.started ≤ f.serial && asksFresh f.task) = true := by
      obtain ⟨f, launched, task, serial⟩ := h.launched (List.mem_filter.mp there).1
      refine List.any_eq_true.mpr ⟨f, launched, ?_⟩
      simp [task, serial, asksFresh]
    have known := (inv.known.move timely move asks).taken
    simp only [Watched.see, h.side]
    rw [h.now]
    exact known
  have more : w.system.started ≤ t.started := by
    rw [h.started]
    exact Nat.le_add_right _ _
  -- The tasks that the watcher counted are still those, where the loss goes on.
  have goes_on {own : OwnRecovery} {since n : ℕ} (is_own : t.pool.own = some own)
      (lasts : own.lostSince = some since) (after : w.intactTasks ≤ n) :
      (w.see (linksAfter w.links call) t).intactTasks ≤ n := by
    have gone : lost (ownSide t.pool) (linksAfter w.links call) = true :=
      known.is_lost is_own lasts
    exact Nat.le_trans (Nat.le_of_eq (if_pos gone)) after
  refine
    { known := known
      entries := ?_
      spawned := by rw [Watched.see, h.pool]
      out := by rw [Watched.see, h.pool]
      once := ?_
      counted := ?_
      timers := ?_
      budgets := ?_
      numbered := ?_ }
  · refine entries.of_same ?_ ?_ <;> rw [Watched.see, h.pool]
  · obtain ⟨kept, counted⟩ := news_move move noNews inv.known.unlost
    have fewer (events : List PoolEvent) :
        events.filter isLoss = (events.filter isNews).filter isLoss := by
      rw [List.filter_filter]
      refine List.filter_congr fun event _ => ?_
      cases event <;> rfl
    have lostNow : t.pool.ownLost = (ownSide (w.system.left call takeOver)).ownLost := by
      rw [h.pool]
      rfl
    have before : w.system.pool.ownLost = (ownSide w.system.pool).ownLost := rfl
    have once := inv.once
    rw [Watched.see, h.reported, List.filter_append, List.length_append, once,
      fewer (w.system.left call takeOver).out,
      show (w.system.left call takeOver).out.filter isNews =
        (ownSide (w.system.left call takeOver)).news from rfl, counted, lostNow, before]
    revert kept
    cases (ownSide w.system.pool).ownLost <;>
      cases (ownSide (w.system.left call takeOver)).ownLost <;> simp
  · dsimp only [Watched.see]
    split_ifs
    · exact Nat.le_trans inv.counted more
    · exact Nat.le_refl _
  · intro f there epoch timer
    have sideOwn : t.pool.own = (ownSide (w.system.left call takeOver)).own := by
      rw [h.pool]
      rfl
    have sideLost : t.pool.ownLost = (ownSide (w.system.left call takeOver)).ownLost := by
      rw [h.pool]
      rfl
    change f.since ≤ t.now ∧ (t.pool.own = none → t.pool.ownLost) ∧
      ∀ own, t.pool.own = some own → epoch ≤ own.epoch ∧ (epoch = own.epoch →
        ∀ since, own.lostSince = some since → since ≤ f.since ∧
          (w.see (linksAfter w.links call) t).intactTasks ≤ f.serial)
    rw [sideLost, h.now]
    obtain ⟨g, before, same⟩ | ⟨since, serial, ours⟩ := mem_flights there
    · rw [same.task] at timer
      obtain ⟨early, lost, older⟩ := inv.timers g before epoch timer
      rw [same.since, same.serial]
      refine ⟨early, fun none_ => ?_, fun own here => ?_⟩
      · by_contra unlost
        rw [Bool.not_eq_true] at unlost
        obtain ⟨none_, unlost, -⟩ := idle_move move (sideOwn.symm.trans none_) unlost
        exact Bool.false_ne_true (unlost.symm.trans (lost none_))
      · have is_own := sideOwn.symm.trans here
        cases was : w.system.pool.own with
        | none =>
            have unlost := unlost_move inv.known move (Option.isSome_of_mem is_own)
            have kept := (news_move move noNews inv.known.unlost).1 (lost was)
            exact absurd (unlost.symm.trans kept) Bool.false_ne_true
        | some own' =>
            obtain ⟨grows, lasts⟩ := epoch_move move was is_own
            obtain ⟨le, eq⟩ := older own' was
            refine ⟨Nat.le_trans le grows, fun same since lost => ?_⟩
            have numbered : own.epoch = own'.epoch := by omega
            obtain ⟨late, counted⟩ := eq (by omega) since (lasts numbered since lost)
            exact ⟨late, goes_on here lost counted⟩
    · have there := ours (by
        cases is_task : f.task <;> rw [is_task] at timer <;> first | rfl | cases timer)
      obtain ⟨numbered, -⟩ := task_move move noTasks there
      obtain ⟨own, is_own, rfl⟩ := numbered epoch timer
      refine ⟨since.le, fun none_ => ?_, fun own' here => ?_⟩
      · cases (sideOwn.symm.trans none_).symm.trans is_own
      · cases is_own.symm.trans (sideOwn.symm.trans here)
        refine ⟨Nat.le_refl _, fun _ began lost => ⟨?_, ?_⟩⟩
        · rw [since]
          exact (since_move inv.known move own began is_own lost).2.1
        · exact goes_on here lost (Nat.le_trans inv.counted serial)
  · intro f there epoch delay is_budget
    dsimp only [Watched.see]
    rw [budget]
    obtain ⟨g, before, same⟩ | ⟨-, -, ours⟩ := mem_flights there
    · exact inv.budgets g before epoch delay (same.task.symm.trans is_budget)
    · have there := ours (by rw [is_budget]; rfl)
      exact (task_move move noTasks there).2.1 epoch delay is_budget
  · intro f there key is_forward
    obtain ⟨g, before, same⟩ | ⟨-, -, ours⟩ := mem_flights there
    · exact inv.numbered g before key (same.task.symm.trans is_forward)
    · have there := ours (by rw [is_forward]; rfl)
      exact (task_move move noTasks there).2.2 key is_forward

/-- Time passes, or a task answers. -/
theorem Inv.quiet (inv : Inv w) (pool : t.pool = w.system.pool) (later : w.system.now ≤ t.now)
    (flights : ∀ f ∈ t.flights, ∃ g ∈ w.system.flights, SameTask g f)
    (over_ : t.over_ = w.system.over_) (started : t.started = w.system.started)
    (reported : t.reported = w.system.reported) : Inv (w.see w.links t) where
  known := by
    have k := inv.known
    have none_ : isUp (ownSide w.system.pool) → w.wasUp := k.seen
    have up : (w.wasUp || isUp (ownSide w.system.pool)) = w.wasUp := by
      cases was : w.wasUp
      · rw [Bool.false_or, Bool.eq_false_iff]
        exact fun up => Bool.false_ne_true (was.symm.trans (k.seen up))
      · rfl
    simp only [Watched.see, pool, over_, up]
    exact
      { whole := k.whole
        unlost := k.unlost
        intact := by
          split_ifs
          · exact Nat.le_trans k.intact later
          · exact Nat.le_refl _
        since := fun own began is_own lasts => by
          obtain ⟨after, before, broken⟩ := k.since own began is_own lasts
          rw [if_pos (k.is_lost is_own lasts)]
          exact ⟨after, Nat.le_trans before later, broken⟩
        shut := k.shut
        spent := fun opened own is_own spent => by
          obtain ⟨began, lasts, long⟩ := k.spent opened own is_own spent
          exact ⟨began, lasts, Nat.le_trans long later⟩
        down := k.down
        tokens := fun opened own is_own refetched => by
          obtain ⟨⟨began, lasts⟩, next⟩ := k.tokens opened own is_own refetched
          refine ⟨⟨began, lasts⟩, next.imp_right fun asked => ?_⟩
          rw [k.is_lost is_own lasts, asked, Bool.true_or]
          rfl
        connecting := k.connecting
        up := k.up
        seen := k.seen
        fresh := k.fresh
        ended := k.ended }
  entries := inv.entries.of_same (congrArg MediaPool.pool pool)
    (congrArg MediaPool.ownConnectionKey pool)
  spawned := (congrArg MediaPool.spawned pool).trans inv.spawned
  out := (congrArg MediaPool.out pool).trans inv.out
  once := by
    rw [Watched.see, reported, pool]
    exact inv.once
  counted := by
    dsimp only [Watched.see]
    rw [started]
    split_ifs
    · exact inv.counted
    · exact Nat.le_refl _
  timers f there epoch timer := by
    obtain ⟨g, before, same⟩ := flights f there
    obtain ⟨early, given_up, older⟩ := inv.timers g before epoch (same.task ▸ timer)
    dsimp only [Watched.see]
    rw [pool, same.since, same.serial]
    refine ⟨Nat.le_trans early later, given_up, fun own is_own => ?_⟩
    obtain ⟨le, eq⟩ := older own is_own
    refine ⟨le, fun same since lasts => ?_⟩
    rw [if_pos (inv.known.is_lost is_own lasts)]
    exact eq same since lasts
  budgets f there epoch delay is_budget := by
    obtain ⟨g, before, same⟩ := flights f there
    dsimp only [Watched.see]
    rw [pool]
    exact inv.budgets g before epoch delay (same.task ▸ is_budget)
  numbered f there key is_forward := by
    obtain ⟨g, before, same⟩ := flights f there
    exact inv.numbered g before key (same.task ▸ is_forward)

theorem timely_owner {v : OwnSide} {now : ℕ} {p : MediaPool} {over_ over' : List (String × ℕ)}
    (may : allowed p call) (kept : ∀ connection ∈ over_, connection ∈ over') :
    Timely v now call over_ over' where
  kept := kept
  ends key generation by_end := by
    obtain rfl | ⟨message, rfl⟩ := by_end <;> cases may
  budget own since is_own is_budget := by
    subst is_budget
    cases may
  linked key generation is_link := by
    subst is_link
    cases may

theorem Inv.timely_delivered (inv : Inv w) {i : ℕ} {f : Flight} {message : Message}
    (h : Delivered w.system i takeOver f message t) :
    Timely (ownSide w.system.pool) w.system.now (.handle message) w.system.over_ t.over_ where
  kept connection there := by
    rw [h.called.over_]
    exact List.mem_append_right _ there
  ends key generation by_end := by
    obtain same | ⟨last, same⟩ := by_end
    · cases same
      rw [h.called.over_, connection_of_ended h.sends]
      exact .head _
    · cases same
      exact absurd h.sends message_ne_connection
  budget own since is_own is_budget lasts := by
    cases is_budget
    obtain ⟨delay, task, due⟩ := budget_of_message h.sends
    have there := List.mem_of_getElem? h.there
    have whole := inv.budgets f there _ delay task
    obtain ⟨-, -, older⟩ := inv.timers f there own.epoch (by rw [task]; rfl)
    have early := ((older own is_own).2 rfl since lasts).1
    change since + w.system.pool.ownReconnectBudget ≤ w.system.now
    omega
  linked key generation is_link := by
    cases is_link
    exact absurd h.sends message_ne_connection

theorem Inv.timely_happened (inv : Inv w) {i : ℕ} {f : Flight} {event : ConnectionEvent}
    {connection : String × ℕ} (h : Happened w.system i event takeOver f connection t) :
    Timely (ownSide w.system.pool) w.system.now
      (.handle (.connection connection.1 connection.2 event)) w.system.over_ t.over_ where
  kept other there := by
    rw [h.called.over_]
    exact List.mem_append_right _ there
  ends key generation by_end := by
    obtain same | ⟨last, same⟩ := by_end
    · cases same
    · cases same
      rw [h.called.over_]
      exact .head _
  budget own since is_own is_budget := nomatch is_budget
  linked key generation is_link := by
    cases is_link
    refine ⟨fun zero => ?_, h.goes⟩
    have task := task_of_connection h.forwards
    rw [zero] at task
    exact inv.numbered f (List.mem_of_getElem? h.there) _ task

theorem inv_step {a : Action} {w' : Watched} (inv : Inv w) (apart : Apart w a)
    (next : step w a = some w') : Inv w' := by
  obtain ⟨t, moved, rfl⟩ := Option.map_eq_some_iff.mp next
  obtain ⟨ms, rfl, rfl⟩ | ⟨i, result, f, rfl, there, -, rfl⟩ | ⟨call, takeOver, rfl, may, called⟩ |
    ⟨i, takeOver, f, message, rfl, delivered⟩ |
    ⟨i, event, takeOver, f, connection, rfl, happened⟩ := step_cases moved
  · exact inv.quiet rfl (Nat.le_add_right _ _) (fun f there => ⟨f, there, .refl f⟩) rfl rfl rfl
  · refine inv.quiet rfl (Nat.le_refl _) (fun g set => ?_) rfl rfl rfl
    obtain before | rfl := List.mem_or_eq_of_mem_set set
    · exact ⟨g, before, .refl g⟩
    · exact ⟨f, List.mem_of_getElem? there, rfl, rfl, rfl, rfl, rfl⟩
  · exact inv.called called (apart call rfl) (timely_owner may fun connection there => by
      rw [called.over_]
      exact there)
  · have calls : callOf w.system (.deliver i takeOver) = some (.handle message) := by
      simp [callOf, delivered.there, delivered.sends]
    rw [calls]
    exact inv.called delivered.called (apart _ calls) (inv.timely_delivered delivered)
  · have calls : callOf w.system (.event i event takeOver) =
        some (.handle (.connection connection.1 connection.2 event)) := by
      simp [callOf, happened.there, happened.forwards]
    rw [calls]
    exact inv.called happened.called (apart _ calls) (inv.timely_happened happened)

theorem Inv.gave_up (inv : Inv w) (h : Called w.system call takeOver rest lapsed t)
    (apart : overtakes w.system.pool call = false) {reason : OwnConnectionLoss} {message : String}
    (there : .ownConnectionLost reason message ∈
      t.reported.drop w.system.reported.length) :
    (reason = .refused ∧ ∃ attempt error,
        call = .handle (.ownConnectFinished attempt (.error error)) ∧
          (error = .refused message ∨ error = .tokenRejected message ∧ (w.asked ∨ Spent w))) ∨
      Spent w ∧ reason = (if w.wasUp then .budget else .neverConnected) ∧
        ((∃ attempt result, call = .handle (.ownConnectFinished attempt result)) ∨
          ∃ own since, w.system.pool.own = some own ∧ own.lostSince = some since ∧
            call = .handle (.ownFinalAttemptExpired own.epoch)) := by
  obtain ⟨move, -⟩ := h.does inv.entries inv.known.whole apart
  have noNews : (ownSide w.system.pool).news = [] := by simp [ownSide, inv.out]
  rw [h.reported, List.drop_left] at there
  exact due_move inv.known move noNews (List.mem_filter.mpr ⟨there, rfl⟩)

/-- Our own focus is given up only where it is due, and by no timer of an earlier loss. -/
theorem justified_step {a : Action} (inv : Inv w) (apart : Apart w a) : Justified w a := by
  intro t next reason message there
  obtain ⟨t, moved, rfl⟩ := Option.map_eq_some_iff.mp next
  obtain ⟨ms, rfl, rfl⟩ | ⟨i, result, f, rfl, -, -, rfl⟩ | ⟨call, takeOver, rfl, may, called⟩ |
    ⟨i, takeOver, f, sent, rfl, delivered⟩ |
    ⟨i, event, takeOver, f, connection, rfl, happened⟩ := step_cases moved
  · simp [Watched.see] at there
  · simp [Watched.see] at there
  · obtain ⟨-, _, _, rfl, -⟩ | ⟨-, -, ⟨_, _, rfl⟩ | ⟨_, _, -, -, rfl⟩⟩ :=
      inv.gave_up called (apart call rfl) there <;> cases may
  · have is_call : callOf w.system (.deliver i takeOver) = some (.handle sent) := by
      simp [callOf, delivered.there, delivered.sends]
    have untimed {attempt : ℕ} {result : Except TransportError Unit}
        (is_attempt : sent = .ownConnectFinished attempt result) :
        Current w (.deliver i takeOver) := by
      subst is_attempt
      obtain ⟨_, _, _, task, -⟩ := attempt_of_message delivered.sends
      rintro _ _ g ⟨⟩ there timer
      cases delivered.there.symm.trans there
      rw [task] at timer
      cases timer
    obtain ⟨rfl, attempt, error, is_call, why⟩ | ⟨spent, rfl, by_⟩ :=
      inv.gave_up delivered.called (apart _ is_call) there
    · cases is_call
      obtain ⟨own, fresh, answer, task, answered, same⟩ := attempt_of_message delivered.sends
      have failed : answer = .error error := by
        cases answer with
        | ok => cases same
        | error => exact congrArg Except.error (Except.error.inj same).symm
      refine ⟨⟨error, ?_, message, why⟩, untimed rfl⟩
      exact ⟨i, takeOver, f, own, attempt, fresh, rfl, delivered.there, task, failed ▸ answered⟩
    · have due : Due w (.deliver i takeOver) (if w.wasUp then .budget else .neverConnected) := by
        cases up : w.wasUp
        · exact ⟨spent, up⟩
        · exact ⟨spent, up⟩
      refine ⟨due, ?_⟩
      obtain ⟨attempt, result, is_call⟩ | ⟨own, since, is_own, lasts, is_call⟩ := by_
      · cases is_call
        exact untimed rfl
      · cases is_call
        obtain ⟨delay, task, -⟩ := final_of_message delivered.sends
        rintro _ _ g ⟨⟩ there -
        cases delivered.there.symm.trans there
        obtain ⟨-, -, older⟩ := inv.timers f (List.mem_of_getElem? there) own.epoch (by rw [task]; rfl)
        have began := (inv.known.since own since is_own lasts).1
        obtain ⟨late, counted⟩ := (older own is_own).2 rfl since lasts
        exact ⟨Nat.le_trans began late, counted⟩
  · have is_call : callOf w.system (.event i event takeOver) =
        some (.handle (.connection connection.1 connection.2 event)) := by
      simp [callOf, happened.there, happened.forwards]
    obtain ⟨-, _, _, other, -⟩ | ⟨-, -, ⟨_, _, other⟩ | ⟨_, _, -, -, other⟩⟩ :=
      inv.gave_up happened.called (apart _ is_call) there <;> cases other

end

/-- As long as no connect to a peer's focus is taken for an attempt at our own, our own focus
is given up at most once, and only when it must be. -/
theorem own_focus_given_up_when_due (config : PoolConfig) (now : ℕ) (as : List Action)
    (apart : Admissible step Apart (start config now) as) :
    Always step Once (start config now) as ∧
      Admissible step Justified (start config now) as := by
  refine ⟨always_of_admissible (fun _ _ _ => inv_step) (fun w inv => ?_) (inv_start config now)
    apart, apart.of_invariant (fun _ _ _ => inv_step) (fun _ _ => justified_step)
      (inv_start config now)⟩
  rw [Once, inv.once]
  split_ifs <;> decide

/-- Alice's pool, which may move to the focus of a peer. -/
def movableConfig : PoolConfig :=
  { aliceConfig with ownConnectionKey := some "https://a.x", sfuFallback := true }

/-- Our own focus never comes up, and the last attempt at it is not answered. -/
theorem own_focus_given_up_when_due_unanswered :
    Always step Once (start movableConfig 0)
        [.owner (.connectOwn "https://a.x" 10) (.ok ()), .tick 60000, .deliver 0 (.ok ()),
          .tick 10000, .deliver 2 (.ok ())] ∧
      Admissible step Justified (start movableConfig 0)
        [.owner (.connectOwn "https://a.x" 10) (.ok ()), .tick 60000, .deliver 0 (.ok ()),
          .tick 10000, .deliver 2 (.ok ())] :=
  own_focus_given_up_when_due movableConfig 0 _ (by decide +kernel)

/-- Bob comes, goes and comes again while the first connect to his focus is out. Our own focus
is lost and we move to his, which is lost too. -/
def movedAndLost : List Action :=
  [.owner (.applySnapshot [bobOnB]) (.ok ()), .owner (.adoptOwnConnection "https://a.x" 10) (.ok ()),
    .owner (.applySnapshot []) (.ok ()), .tick 10000, .deliver 2 (.ok ()),
    .owner (.applySnapshot [bobOnB]) (.ok ()), .answer 2 (.ok 20), .deliver 2 (.ok ()),
    .event 1 (.closed "lost") (.ok ()), .tick 10000, .deliver 4 (.ok ()),
    .event 2 (.closed "lost") (.ok ())]

/-- The first connect answers before our attempt does, the attempt is then not waited for, and
the loss lasts. -/
def tookThePlace : List Action :=
  movedAndLost ++ [.answer 0 (.ok 30), .deliver 0 (.ok ()), .answer 6 (.ok 10),
    .deliver 6 (.ok ()), .tick 60000, .deliver 4 (.ok ()), .tick 10000]

/-- Our own focus is given up while it is up. -/
theorem own_focus_given_up_while_up :
    ¬ ∀ (config : PoolConfig) (now : ℕ) (as : List Action),
      Always step Once (start config now) as ∧
        Admissible step Justified (start config now) as := by
  intro h
  have steps := (h movableConfig 0 (tookThePlace ++ [.deliver 6 (.ok ())])).2
  have reaches := (Option.some_get (by decide +kernel :
    (run step (start movableConfig 0) tookThePlace).isSome)).symm
  have justified := (steps.append reaches).2.1
  have due := (justified _ (Option.some_get (by decide +kernel)).symm .budget
    "no connection to our own focus for 60 s" (by decide +kernel)).1
  exact absurd due.1.1 (by decide +kernel)

end MatrixRtc.OwnLosses

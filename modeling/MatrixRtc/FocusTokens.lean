import MatrixRtc.LiveKitTargets
import MatrixRtc.StepRuns

/-!
# The token of a connection's focus

A connection handle reconnects with the token it keeps, or with one it acquires for the focus
it is configured for; a take-over gives it the session, the configuration and the token of
another handle. A reconnect is in steps, between which others come: a look at the kept token,
a look at the configuration, the answer of the exchange and that of the room. A take-over is
one step, as nothing in it waits. A session keeps the token that its room was reached with, a
token what it was acquired for.
-/
namespace MatrixRtc.FocusTokens
open MediaTransports LiveKitTargets StepRuns

structure LiveKitTransportConfig where
  target : LiveKitTarget
  roomId : String
  slotId : String
  memberId : String
  deviceId : String
deriving DecidableEq

structure SfuToken where
  acquiredFor : LiveKitTarget
  jwt : String
deriving DecidableEq

structure LiveKitSession where
  room : ℕ
  token : SfuToken
deriving DecidableEq

/-- Where a reconnect is: the first three are inside `Connector::token`. -/
inductive Stage where
  | called (freshToken : Bool)
  | missed
  | exchanging (config : LiveKitTransportConfig)
  | connecting (token : SfuToken)
deriving DecidableEq

/-- A reconnect in progress, with the installs there were when it started. -/
structure Reconnect where
  started : ℕ
  stage : Stage
deriving DecidableEq

/-- `LiveKitTransportConnection`, and the reconnects that are in progress on it. -/
structure Connection where
  config : LiveKitTransportConfig
  token : Option SfuToken
  session : Option LiveKitSession
  installs : ℕ
  reconnects : List Reconnect

/-- `prepare_own`. -/
def prepared (config : LiveKitTransportConfig) : Connection :=
  { config := config
    token := none
    session := none
    installs := 0
    reconnects := [] }

inductive Move where
  | reconnect (freshToken : Bool)
  | look (i : ℕ)
  | read (i : ℕ)
  | acquired (i : ℕ) (result : Except TransportError String)
  | connected (i : ℕ) (result : Except TransportError ℕ)

namespace Connection

/-- A reconnect goes on. -/
def goOn (c : Connection) (i : ℕ) (r : Reconnect) (stage : Stage) : Connection :=
  { c with reconnects := c.reconnects.set i { r with stage := stage } }

/-- A reconnect returns. -/
def ends (c : Connection) (i : ℕ) : Connection :=
  { c with reconnects := c.reconnects.eraseIdx i }

/-- The token exchange has answered: what it gave is kept. -/
def keep (c : Connection) (i : ℕ) (r : Reconnect) (token : SfuToken) : Connection :=
  { c with token := some token }.goOn i r (.connecting token)

/-- A room is connected: it is abandoned where another was installed since the start. -/
def install (c : Connection) (i : ℕ) (r : Reconnect) (session : LiveKitSession) : Connection :=
  if c.installs = r.started then { c with session := some session }.ends i else c.ends i

end Connection

/-- A step of `reconnect`. -/
def move (c : Connection) : Move → Option Connection
  | .reconnect freshToken =>
      some { c with reconnects := c.reconnects ++ [⟨c.installs, .called freshToken⟩] }
  | .look i => do
      let r ← c.reconnects[i]?
      match r.stage with
      | .called freshToken =>
          match c.token.filter fun _ => !freshToken with
          | some token => return c.goOn i r (.connecting token)
          | none => return c.goOn i r .missed
      | .missed | .exchanging _ | .connecting _ => none
  | .read i => do
      let r ← c.reconnects[i]?
      match r.stage with
      | .missed => return c.goOn i r (.exchanging c.config)
      | .called _ | .exchanging _ | .connecting _ => none
  | .acquired i result => do
      let r ← c.reconnects[i]?
      match r.stage with
      | .exchanging config =>
          match result with
          | .ok jwt => return c.keep i r ⟨config.target, jwt⟩
          | .error _ => return c.ends i
      | .called _ | .missed | .connecting _ => none
  | .connected i result => do
      let r ← c.reconnects[i]?
      match r.stage with
      | .connecting token =>
          match result with
          | .ok room => return c.install i r ⟨room, token⟩
          | .error _ => return c.ends i
      | .called _ | .missed | .exchanging _ => none

/-- What a connection handle hands over. -/
structure Handover where
  session : LiveKitSession
  config : LiveKitTransportConfig
  token : Option SfuToken

/-- `hand_over`. -/
def Connection.handOver (c : Connection) : Option Handover :=
  c.session.map fun session => ⟨session, c.config, c.token⟩

/-- What a peer's handle has handed over, which took none over itself. -/
structure HandedOver extends Handover where
  given : ∃ config moves c, run move (prepared config) moves = some c ∧
    c.handOver = some toHandover

inductive Action where
  | move (m : Move)
  | takeOver (handover : Option HandedOver)

/-- `take_over`: nothing, where the handover is not of a LiveKit connection. -/
def Connection.takeOver (c : Connection) : Option HandedOver → Connection
  | some handover =>
      { c with
        installs := c.installs + 1
        config := handover.config
        token := handover.token
        session := some handover.session }
  | none => c

def step (c : Connection) : Action → Option Connection
  | .move m => move c m
  | .takeOver handover => some (c.takeOver handover)

/-- The reconnect is inside `Connector::token`. -/
def Stage.asksToken : Stage → Bool
  | .called _ | .missed | .exchanging _ => true
  | .connecting _ => false

/-- The session is one of the focus the handle is configured for, and so is the token it keeps,
unless a token is being asked for. -/
structure Right (c : Connection) : Prop where
  session : ∀ session ∈ c.session, session.token.acquiredFor = c.config.target
  token : (c.reconnects.all fun r => !r.stage.asksToken) → ∀ token ∈ c.token,
    token.acquiredFor = c.config.target

/-- A token that is answered now was asked for since the last take-over, or is for the focus
that it was to. -/
def Unmoved (c : Connection) : Action → Prop
  | .move (.acquired i (.ok _)) => ∀ r ∈ c.reconnects[i]?,
      match r.stage with
      | .exchanging config => r.started = c.installs ∨ config.target = c.config.target
      | .called _ | .missed | .connecting _ => True
  | _ => True

instance (c : Connection) (a : Action) : Decidable (Unmoved c a) := by
  unfold Unmoved
  split
  · have (r : Reconnect) : Decidable (match r.stage with
        | .exchanging config => r.started = c.installs ∨ config.target = c.config.target
        | .called _ | .missed | .connecting _ => True) := by
      split <;> infer_instance
    exact inferInstanceAs (Decidable (∀ r ∈ _, _))
  · exact isTrue trivial

/-- A reconnect that may still install its room is for the focus of the configuration. -/
def Aims (c : Connection) (r : Reconnect) : Prop :=
  r.started = c.installs → match r.stage with
    | .called _ | .missed => True
    | .exchanging config => config.target = c.config.target
    | .connecting token => token.acquiredFor = c.config.target

structure Inv (c : Connection) : Prop where
  session : ∀ session ∈ c.session, session.token.acquiredFor = c.config.target
  token : ∀ token ∈ c.token, token.acquiredFor = c.config.target
  started : ∀ r ∈ c.reconnects, r.started ≤ c.installs
  aims : ∀ r ∈ c.reconnects, Aims c r

section
variable {c d : Connection} {r : Reconnect} {i : ℕ}

theorem Inv.right (inv : Inv c) : Right c := ⟨inv.session, fun _ => inv.token⟩

theorem Inv.prepared (config : LiveKitTransportConfig) : Inv (prepared config) where
  session := fun _ none_ => nomatch none_
  token := fun _ none_ => nomatch none_
  started := List.forall_mem_nil _
  aims := List.forall_mem_nil _

theorem Inv.goOn (inv : Inv c) {stage : Stage} (there : c.reconnects[i]? = some r)
    (aims : Aims c { r with stage := stage }) : Inv (c.goOn i r stage) where
  session := inv.session
  token := inv.token
  started other among := by
    obtain before | rfl := List.mem_or_eq_of_mem_set among
    · exact inv.started other before
    · exact inv.started r (List.mem_of_getElem? there)
  aims other among := by
    obtain before | rfl := List.mem_or_eq_of_mem_set among
    · exact inv.aims other before
    · exact aims

theorem Inv.ends (inv : Inv c) (i : ℕ) : Inv (c.ends i) where
  session := inv.session
  token := inv.token
  started other among := inv.started other (List.mem_of_mem_eraseIdx among)
  aims other among := inv.aims other (List.mem_of_mem_eraseIdx among)

theorem Inv.keep (inv : Inv c) {token : SfuToken} (there : c.reconnects[i]? = some r)
    (right : token.acquiredFor = c.config.target) : Inv (c.keep i r token) := by
  have kept : Inv { c with token := some token } :=
    { inv with token := fun _ same => Option.some.inj same ▸ right }
  exact kept.goOn there fun _ => right

theorem Inv.install (inv : Inv c) {token : SfuToken} (room : ℕ)
    (there : c.reconnects[i]? = some r) (connects : r.stage = .connecting token) :
    Inv (c.install i r ⟨room, token⟩) := by
  unfold Connection.install
  split_ifs with current
  · have right : token.acquiredFor = c.config.target := by
      have aims := inv.aims r (List.mem_of_getElem? there) current.symm
      rwa [connects] at aims
    have installed : Inv { c with session := some ⟨room, token⟩ } :=
      { inv with session := fun _ same => Option.some.inj same ▸ right }
    exact installed.ends i
  · exact inv.ends i

theorem Inv.move {m : Move} (inv : Inv c) (unmoved : Unmoved c (.move m))
    (h : move c m = some d) : Inv d := by
  cases m with
  | reconnect freshToken =>
      cases h
      exact
        { session := inv.session
          token := inv.token
          started := List.forall_mem_append.mpr
            ⟨inv.started, List.forall_mem_singleton.mpr (Nat.le_refl _)⟩
          aims := List.forall_mem_append.mpr
            ⟨inv.aims, List.forall_mem_singleton.mpr fun _ => trivial⟩ }
  | look i =>
      obtain ⟨r, there, h⟩ := Option.bind_eq_some_iff.mp h
      cases stage : r.stage with
      | called freshToken =>
          rw [stage] at h
          cases looked : c.token.filter fun _ => !freshToken with
          | some token =>
              simp only [looked] at h
              cases h
              exact inv.goOn there fun _ => inv.token token (Option.filter_eq_some_iff.mp looked).1
          | none =>
              simp only [looked] at h
              cases h
              exact inv.goOn there fun _ => trivial
      | missed | exchanging _ | connecting _ => simp [stage] at h
  | read i =>
      obtain ⟨r, there, h⟩ := Option.bind_eq_some_iff.mp h
      cases stage : r.stage with
      | missed =>
          rw [stage] at h
          cases h
          exact inv.goOn there fun _ => rfl
      | called _ | exchanging _ | connecting _ => simp [stage] at h
  | acquired i result =>
      obtain ⟨r, there, h⟩ := Option.bind_eq_some_iff.mp h
      cases stage : r.stage with
      | exchanging config =>
          rw [stage] at h
          cases result with
          | ok jwt =>
              cases h
              have aims := inv.aims r (List.mem_of_getElem? there)
              have unmoved := unmoved r there
              rw [Aims, stage] at aims
              rw [stage] at unmoved
              exact inv.keep there (unmoved.elim aims id)
          | error error =>
              cases h
              exact inv.ends i
      | called _ | missed | connecting _ => simp [stage] at h
  | connected i result =>
      obtain ⟨r, there, h⟩ := Option.bind_eq_some_iff.mp h
      cases stage : r.stage with
      | connecting token =>
          rw [stage] at h
          cases result with
          | ok room =>
              cases h
              exact inv.install room there stage
          | error error =>
              cases h
              exact inv.ends i
      | called _ | missed | exchanging _ => simp [stage] at h

theorem install_installs (c : Connection) (i : ℕ) (r : Reconnect) (session : LiveKitSession) :
    (c.install i r session).installs = c.installs := by
  unfold Connection.install
  split_ifs <;> rfl

/-- Only a take-over is counted. -/
theorem move_installs {m : Move} (h : move c m = some d) : d.installs = c.installs := by
  cases m with
  | reconnect freshToken =>
      cases h
      rfl
  | look i | acquired i result =>
      obtain ⟨r, -, h⟩ := Option.bind_eq_some_iff.mp h
      split at h
      · split at h
        · cases h
          rfl
        · cases h
          rfl
      all_goals cases h
  | read i =>
      obtain ⟨r, -, h⟩ := Option.bind_eq_some_iff.mp h
      split at h
      · cases h
        rfl
      all_goals cases h
  | connected i result =>
      obtain ⟨r, -, h⟩ := Option.bind_eq_some_iff.mp h
      split at h
      · split at h
        · cases h
          exact install_installs c i r _
        · cases h
          rfl
      all_goals cases h

/-- A handle that takes nothing over keeps a token of its one focus. -/
theorem Inv.peer {config : LiveKitTransportConfig} {moves : List Move}
    (h : run FocusTokens.move (FocusTokens.prepared config) moves = some c) : Inv c := by
  refine (run_invariant_of_step (I := fun c => Inv c ∧ c.installs = 0) ?_
    ⟨.prepared config, rfl⟩ h).1
  rintro c m d ⟨inv, none_⟩ moved
  refine ⟨inv.move ?_ moved, (move_installs moved).trans none_⟩
  cases m with
  | acquired i result =>
      cases result with
      | ok jwt =>
          intro r there
          split
          · have started := inv.started r (List.mem_of_getElem? there)
            exact .inl (by omega)
          all_goals trivial
      | error error => trivial
  | reconnect _ | look _ | read _ | connected _ _ => trivial

theorem Inv.takeOver (inv : Inv c) (handover : Option HandedOver) : Inv (c.takeOver handover) := by
  cases handover with
  | none => exact inv
  | some handover =>
      obtain ⟨_, _, peer, reached, handed⟩ := handover.given
      have right := Inv.peer reached
      obtain ⟨session, is_session, same⟩ := Option.map_eq_some_iff.mp handed
      have handedSession : handover.session = session := congrArg Handover.session same.symm
      have handedConfig : handover.config = peer.config := congrArg Handover.config same.symm
      have handedToken : handover.token = peer.token := congrArg Handover.token same.symm
      exact
        { session := fun _ installed => by
            rw [← Option.some.inj installed, handedSession, show (c.takeOver (some handover)).config =
              peer.config from handedConfig]
            exact right.session session is_session
          token := fun token kept => by
            rw [show (c.takeOver (some handover)).config = peer.config from handedConfig]
            exact right.token token (handedToken ▸ kept)
          started := fun r among => Nat.le_succ_of_le (inv.started r among)
          aims := fun r among current =>
            absurd (inv.started r among)
              (Nat.not_le_of_lt (Nat.lt_of_succ_le (Nat.le_of_eq current.symm))) }

theorem Inv.step {a : Action} (inv : Inv c) (unmoved : Unmoved c a) (h : step c a = some d) :
    Inv d := by
  cases a with
  | move m => exact inv.move unmoved h
  | takeOver handover =>
      cases h
      exact inv.takeOver handover

end

/-- As long as no token is answered after our media has moved on from the focus it is for, a
handle has the session of the focus it is configured for, and keeps a token of that focus. -/
theorem tokens_of_their_focus (config : LiveKitTransportConfig) (as : List Action)
    (unmoved : Admissible step Unmoved (prepared config) as) :
    Always step Right (prepared config) as :=
  always_of_admissible (fun _ _ _ inv unmoved h => Inv.step inv unmoved h)
    (fun _ inv => inv.right) (.prepared config) unmoved

/-- Alice's membership of a call, with our media on the SFU of `serverName`. -/
def configFor (url serverName : String) : LiveKitTransportConfig :=
  { target := .csApi url serverName
    roomId := "!room:a.x"
    slotId := "m.call#ROOM"
    memberId := "alice-1"
    deviceId := "A" }

/-- The connection to Bob's focus is up and is handed over. -/
def bobsHandover : HandedOver where
  session := ⟨2, ⟨.csApi "wss://b.x" "b.x", "jwt-b"⟩⟩
  config := configFor "wss://b.x" "b.x"
  token := some ⟨.csApi "wss://b.x" "b.x", "jwt-b"⟩
  given := ⟨configFor "wss://b.x" "b.x", [.reconnect false, .look 0, .read 0,
    .acquired 0 (.ok "jwt-b"), .connected 0 (.ok 2)], _, rfl, rfl⟩

/-- A reconnect has its token by the time of the take-over, and is abandoned. -/
theorem tokens_of_their_focus_abandoned : Always step Right (prepared (configFor "wss://a.x" "a.x"))
    [.move (.reconnect false), .move (.look 0), .move (.read 0), .move (.acquired 0 (.ok "jwt-a")),
      .takeOver (some bobsHandover), .move (.connected 0 (.ok 1)), .move (.reconnect false),
      .move (.look 0), .move (.connected 0 (.ok 3))] :=
  tokens_of_their_focus (configFor "wss://a.x" "a.x") _ (by decide)

/-- A reconnect is still asking for its token at the take-over. -/
def answeredLate : List Action :=
  [.move (.reconnect false), .move (.look 0), .move (.read 0), .takeOver (some bobsHandover),
    .move (.acquired 0 (.ok "jwt-a")), .move (.connected 0 (.ok 1)), .move (.reconnect false),
    .move (.look 0), .move (.connected 0 (.ok 3))]

/-- The next reconnect goes to the focus that our media was moved from. -/
theorem session_of_left_focus :
    ¬ ∀ (config : LiveKitTransportConfig) (as : List Action),
      Always step Right (prepared config) as := by
  intro h
  have sessions := (h (configFor "wss://a.x" "a.x") answeredLate).mono fun c right => right.session
  revert sessions
  decide

end MatrixRtc.FocusTokens

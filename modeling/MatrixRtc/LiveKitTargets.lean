import Mathlib.Data.Option.Basic
import MatrixRtc.MediaTransports
import MatrixRtc.MemberContents

/-!
# Targets of LiveKit connections

Where a LiveKit connection goes and how its token is obtained: a published transport's token
flow, resolved for who publishes it. The target gives the key that connections are grouped by
and the identity that the token mints for us. How a target is written as a string is a
parameter, and so is the hash of the homeserver's flow.
-/
namespace MatrixRtc.LiveKitTargets
open JsonValues MemberEvents MemberContents MediaTransports

inductive LiveKitTarget where
  | sfuGet (serviceUrl : String)
  | csApi (url serverName : String)
deriving DecidableEq, Repr

/-- How a target is written as a string, and read back. -/
structure TargetFormat where
  toString : LiveKitTarget → String
  fromStr : String → Option LiveKitTarget
  fromStr_toString : ∀ target, fromStr (toString target) = some target

/-- `LiveKitTransport::sfu_server_name`. -/
def sfuServerName (transport : LiveKitTransport) (publisherUserId : String) : String :=
  transport.serverName.getD (serverNameOf publisherUserId)

namespace LiveKitTarget

/-- `LiveKitTarget::for_transport`. -/
def forTransport (transport : LiveKitTransport) (publisherUserId : String) : LiveKitTarget :=
  match authFlow transport with
  | .sfuGet serviceUrl => .sfuGet serviceUrl
  | .csApi url => .csApi url (sfuServerName transport publisherUserId)

/-- `LiveKitTarget::own_identity`. -/
def ownIdentity (msc4195Identity : String → String → String) (userId deviceId memberId : String) :
    LiveKitTarget → String
  | .sfuGet _ => userId ++ ":" ++ deviceId
  | .csApi _ _ => msc4195Identity userId memberId

/-- `LiveKitTarget::same_flow`. -/
def sameFlow : LiveKitTarget → LiveKitTarget → Bool
  | .sfuGet _, .sfuGet _ | .csApi _ _, .csApi _ _ => true
  | .sfuGet _, .csApi _ _ | .csApi _ _, .sfuGet _ => false

end LiveKitTarget

/-- `connection_key`. -/
def connectionKey (format : TargetFormat) (transport : RtcTransport) (publisherUserId : String) :
    Option String :=
  match transport with
  | .liveKit livekit => some (format.toString (.forTransport livekit publisherUserId))
  | .unsupported _ => none

/-- The LiveKit backend of a pool. -/
def liveKitBackend (format : TargetFormat) (msc4195Identity : String → String → String) :
    MediaTransport :=
  { connectionKey := connectionKey format
    remoteIdentity := mappedIdentity (identityFor msc4195Identity)
    sharesIdentity := fun a b =>
      match format.fromStr a, format.fromStr b with
      | some a, some b => a.sameFlow b
      | _, _ => false }

/-- Who we are on the media plane. -/
structure OwnMemberClaims where
  memberId : String
  userId : String
  deviceId : String

/-- The target a connection handle is prepared for: a key that is none names a service. -/
def preparedTarget (format : TargetFormat) (connectionKey : String) : LiveKitTarget :=
  (format.fromStr connectionKey).getD (.sfuGet connectionKey)

/-- The identity a connection handle is prepared with. -/
def preparedIdentity (format : TargetFormat) (msc4195Identity : String → String → String)
    (connectionKey : String) (us : OwnMemberClaims) : String :=
  (preparedTarget format connectionKey).ownIdentity msc4195Identity us.userId us.deviceId us.memberId

/-- The fields that a LiveKit transport is serialized with. -/
def liveKitFields (transport : LiveKitTransport) : List (String × Json) :=
  (transport.url.map fun url => ("url", Json.str url)).toList ++
    (transport.livekitServiceUrl.map fun url => ("livekit_service_url", Json.str url)).toList ++
    (transport.serverName.map fun name => ("server_name", Json.str name)).toList

/-- `transport_to_json`. -/
def transportToJson : RtcTransport → Json
  | .liveKit livekit => .obj (setField (liveKitFields livekit) "type" (.str "livekit"))
  | .unsupported unsupported =>
      .obj (unsupported.extraFields.foldl (fun object field => setField object field.1 field.2)
        [("type", .str unsupported.transportType)])

/-- A published transport, as a peer reads it. -/
def readTransport (published : Json) : Option RtcTransport :=
  (parseRawRtcTransport published).map RawRtcTransport.intoTyped

theorem lookup_others {key name : String} (differs : name ≠ key) (fields : List (String × Json)) :
    (others key fields).lookup name = fields.lookup name := by
  unfold others
  induction fields with
  | nil => rfl
  | cons field fields ih =>
      obtain ⟨first, value⟩ := field
      by_cases same : first = key
      · subst same
        rw [List.filter_cons_of_neg (by simp), ih, List.lookup_cons, beq_eq_false_iff_ne.mpr differs]
      · rw [List.filter_cons_of_pos (by simpa using same), List.lookup_cons, List.lookup_cons, ih]

theorem LiveKitTransport.new_fields (livekit : LiveKitTransport) :
    LiveKitTransport.new livekit.url livekit.livekitServiceUrl livekit.serverName = some livekit :=
  dif_pos ⟨livekit.named, livekit.qualified⟩

theorem lookup_liveKitFields (livekit : LiveKitTransport) :
    ((liveKitFields livekit).lookup "url").bind Json.asStr = livekit.url ∧
      ((liveKitFields livekit).lookup "livekit_service_url").bind Json.asStr =
        livekit.livekitServiceUrl ∧
      ((liveKitFields livekit).lookup "server_name").bind Json.asStr = livekit.serverName := by
  obtain ⟨url, service, name, named, qualified⟩ := livekit
  cases url <;> cases service <;> cases name <;> exact ⟨rfl, rfl, rfl⟩

theorem readTransport_transportToJson (livekit : LiveKitTransport) :
    readTransport (transportToJson (.liveKit livekit)) = some (.liveKit livekit) := by
  have parsed : parseRawRtcTransport (transportToJson (.liveKit livekit)) = some
      ⟨"livekit", others "type" (setField (liveKitFields livekit) "type" (.str "livekit"))⟩ := by
    simp only [parseRawRtcTransport, transportToJson, Json.asObject]
    rfl
  have kept (name : String) (differs : name ≠ "type") :
      (others "type" (setField (liveKitFields livekit) "type" (.str "livekit"))).lookup name =
        (liveKitFields livekit).lookup name :=
    (lookup_others differs _).trans (lookup_setField_ne differs)
  obtain ⟨url, service, name⟩ := lookup_liveKitFields livekit
  rw [readTransport, parsed, Option.map_some, RawRtcTransport.intoTyped, if_pos (.inl rfl)]
  simp only [kept _ (by decide : "url" ≠ "type"), kept _ (by decide : "livekit_service_url" ≠ "type"),
    kept _ (by decide : "server_name" ≠ "type"), url, service, name,
    LiveKitTransport.new_fields livekit]

section
variable {livekit ours : LiveKitTransport} {publisherUserId : String}

theorem forTransport_service {serviceUrl : String}
    (service : livekit.livekitServiceUrl = some serviceUrl) :
    LiveKitTarget.forTransport livekit publisherUserId = .sfuGet serviceUrl := by
  obtain ⟨_, _, _, _, _⟩ := livekit
  cases service
  rfl

theorem forTransport_url {url : String} (no_service : livekit.livekitServiceUrl = none)
    (named : livekit.url = some url) : LiveKitTarget.forTransport livekit publisherUserId =
      .csApi url (sfuServerName livekit publisherUserId) := by
  obtain ⟨_, _, _, _, _⟩ := livekit
  cases no_service
  cases named
  rfl

theorem asPublishedBy_fields
    (moved : asPublishedBy publisherUserId (.liveKit livekit) = .liveKit ours) :
    ours.url = livekit.url ∧ ours.livekitServiceUrl = livekit.livekitServiceUrl ∧
      (livekit.url.isSome → ours.serverName = some (sfuServerName livekit publisherUserId)) := by
  rw [asPublishedBy] at moved
  split_ifs at moved with unnamed
  · cases moved
    refine ⟨rfl, rfl, fun _ => ?_⟩
    rw [sfuServerName, Option.isNone_iff_eq_none.mp unnamed.2, Option.getD_none]
  · cases moved
    refine ⟨rfl, rfl, fun named => ?_⟩
    obtain ⟨name, is_name⟩ : ∃ name, livekit.serverName = some name := by
      simpa [named, ← Option.ne_none_iff_exists'] using unnamed
    rw [sfuServerName, is_name, Option.getD_some]

theorem forTransport_asPublishedBy
    (moved : asPublishedBy publisherUserId (.liveKit livekit) = .liveKit ours) (userId : String) :
    LiveKitTarget.forTransport ours userId = .forTransport livekit publisherUserId := by
  obtain ⟨same_url, same_service, name⟩ := asPublishedBy_fields moved
  cases service : livekit.livekitServiceUrl with
  | some serviceUrl =>
      rw [forTransport_service service, forTransport_service (same_service.trans service)]
  | none =>
      have named : livekit.url.isSome := livekit.named.resolve_right (by simp [service])
      obtain ⟨url, is_url⟩ := Option.isSome_iff_exists.mp named
      rw [forTransport_url service is_url,
        forTransport_url (same_service.trans service) (same_url.trans is_url)]
      congr 1
      rw [sfuServerName, name named, Option.getD_some]

theorem identityFor_published (msc4195Identity : String → String → String)
    (us : OwnMemberClaims) (livekit : LiveKitTransport) :
    identityFor msc4195Identity
        { userId := us.userId
          deviceId := some us.deviceId
          memberId := us.memberId
          transports := [.liveKit livekit] } =
      some ((LiveKitTarget.forTransport livekit us.userId).ownIdentity msc4195Identity us.userId
        us.deviceId us.memberId) := by
  rw [identityFor, LiveKitTarget.forTransport]
  cases flow : authFlow livekit <;> simp [firstLivekit, asLiveKit, flow,
    LiveKitTarget.ownIdentity]

end

section
variable {format : TargetFormat}

theorem LiveKitTarget.ownIdentity_of_sameFlow {a b : LiveKitTarget} (same : a.sameFlow b = true)
    (msc4195Identity : String → String → String) (userId deviceId memberId : String) :
    b.ownIdentity msc4195Identity userId deviceId memberId =
      a.ownIdentity msc4195Identity userId deviceId memberId := by
  cases a <;> cases b <;> first | rfl | cases same

theorem LiveKitTarget.sameFlow_trans {a b c : LiveKitTarget} (first : a.sameFlow b = true)
    (second : b.sameFlow c = true) : a.sameFlow c = true := by
  cases a <;> cases b <;> cases first <;> cases c <;> exact second

theorem preparedTarget_toString (target : LiveKitTarget) :
    preparedTarget format (format.toString target) = target := by
  rw [preparedTarget, format.fromStr_toString, Option.getD_some]

theorem sharesIdentity_toString {msc4195Identity : String → String → String}
    {a b : LiveKitTarget} : (liveKitBackend format msc4195Identity).sharesIdentity
      (format.toString a) (format.toString b) = a.sameFlow b := by
  simp [liveKitBackend, format.fromStr_toString]

end

def quote : Char := '\x22'

def backslash : Char := '\x5c'

/-- The characters of a string, with quotes and backslashes escaped. -/
def escaped (s : List Char) : List Char :=
  s.flatMap fun c => if c = quote ∨ c = backslash then [backslash, c] else [c]

/-- The string up to the quote that closes it, and what comes after. The first character may be
an escaped one. -/
def unquoted : Bool → List Char → Option (List Char × List Char)
  | _, [] => none
  | true, c :: rest => (unquoted false rest).map fun u => (c :: u.1, u.2)
  | false, c :: rest =>
      if c = quote then some ([], rest)
      else if c = backslash then unquoted true rest
      else (unquoted false rest).map fun u => (c :: u.1, u.2)

def afterPrefix (opening s : List Char) : Option (List Char) :=
  if opening.isPrefixOf s then some (s.drop opening.length) else none

theorem unquoted_escaped (s rest : List Char) :
    unquoted false (escaped s ++ quote :: rest) = some (s, rest) := by
  induction s with
  | nil => simp [escaped, unquoted]
  | cons c s ih =>
      have head : escaped (c :: s) =
          (if c = quote ∨ c = backslash then [backslash, c] else [c]) ++ escaped s := rfl
      rw [head]
      split_ifs with special
      · simp [unquoted, ih, show backslash ≠ quote by decide]
      · obtain ⟨not_quote, not_backslash⟩ := not_or.mp special
        simp [unquoted, ih, not_quote, not_backslash]

theorem afterPrefix_append (opening rest : List Char) :
    afterPrefix opening (opening ++ rest) = some rest := by
  simp [afterPrefix, List.isPrefixOf_iff_prefix]

def sfuGetOpening : List Char :=
  "\x7b\x22flow\x22:\x22sfu_get\x22,\x22service_url\x22:\x22".toList

def csApiOpening : List Char := "\x7b\x22flow\x22:\x22cs_api\x22,\x22url\x22:\x22".toList

def serverNameOpening : List Char := ",\x22server_name\x22:\x22".toList

def closing : List Char := ['\x7d']

/-- The tagged object of a target. -/
def targetJson : LiveKitTarget → List Char
  | .sfuGet serviceUrl => sfuGetOpening ++ (escaped serviceUrl.toList ++ quote :: closing)
  | .csApi url serverName =>
      csApiOpening ++ (escaped url.toList ++ quote ::
        (serverNameOpening ++ (escaped serverName.toList ++ quote :: closing)))

def parseTarget (s : List Char) : Option LiveKitTarget :=
  match afterPrefix sfuGetOpening s, afterPrefix csApiOpening s with
  | some rest, _ => do
      let (serviceUrl, rest) ← unquoted false rest
      guard (rest = closing)
      return .sfuGet (String.ofList serviceUrl)
  | none, some rest => do
      let (url, rest) ← unquoted false rest
      let rest ← afterPrefix serverNameOpening rest
      let (serverName, rest) ← unquoted false rest
      guard (rest = closing)
      return .csApi (String.ofList url) (String.ofList serverName)
  | none, none => none

theorem parseTarget_targetJson (target : LiveKitTarget) :
    parseTarget (targetJson target) = some target := by
  cases target with
  | sfuGet serviceUrl =>
      simp only [parseTarget, targetJson, afterPrefix_append]
      simp [unquoted_escaped]
  | csApi url serverName =>
      have other (rest : List Char) : afterPrefix sfuGetOpening (csApiOpening ++ rest) = none := rfl
      simp only [parseTarget, targetJson, afterPrefix_append, other]
      simp [unquoted_escaped, afterPrefix_append]

/-- Targets as the JSON of a tagged object, its tag first. -/
def jsonFormat : TargetFormat where
  toString target := String.ofList (targetJson target)
  fromStr key := parseTarget key.toList
  fromStr_toString target := by rw [String.toList_ofList, parseTarget_targetJson]

end MatrixRtc.LiveKitTargets

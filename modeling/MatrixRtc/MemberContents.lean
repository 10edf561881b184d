import MatrixRtc.MemberEvents

/-!
# Reading a member event's content

The JSON content of a member event: the rewriting of a pre-2026 content into the
current shape, and the parse of the result. A derived structure is read from an
object by its field names or from an array by their order, an enumeration from a
string or from an object of one `null` field, and an optional field from `null`; a
structure with flattened fields is read from an object alone. What a failed parse
says about its cause is only logged and is left out.
-/
namespace MatrixRtc.MemberContents
open JsonValues MemberEvents

/-- Whether a normalised content can be parsed, or is a leave of nothing but a
sticky key. -/
inductive MemberContent where
  | usable
  | bareLeave
deriving DecidableEq, Repr

/-- `{application}#ROOM` to `{application}#room`. -/
def liftRoomSlotId (object : List (String × Json)) : List (String × Json) :=
  match (object.lookup "slot_id").bind Json.asStr |>.bind (stripSuffix · "ROOM")
      |>.bind (stripSuffix · "#") with
  | some application => setField object "slot_id" (.str (application ++ "#room"))
  | none => object

/-- The types named by the transports, each once, in order. -/
def transportTypes (published : List Json) : List Json :=
  published.foldl
    (fun types transport =>
      match (transport.get "type").bind Json.asStr with
      | some t => if Json.str t ∈ types then types else types ++ [.str t]
      | none => types)
    []

/-- A flat `rtc_transports` array to `transports`. -/
def liftRtcTransports (object : List (String × Json)) : List (String × Json) :=
  if (object.lookup "transports").isSome then object
  else
    match (object.lookup "rtc_transports").bind Json.asArray with
    | none | some [] => object
    | some published =>
        setField object "transports"
          (.obj [("published", .arr published), ("can_subscribe", .arr (transportTypes published))])

/-- A non-empty string under `key`. -/
def names (v : Json) (key : String) : Bool :=
  ((v.get key).bind Json.asStr).any fun s => !s.isEmpty

/-- A member object that states no membership joins when the content names an
application and the member an id. -/
def inferMembership (object : List (String × Json)) : List (String × Json) :=
  if !(object.lookup "application").any fun application => names application "type" then object
  else
    match object.lookup "member" with
    | some (.obj member) =>
        if (member.lookup "membership").isSome ∨ !names (.obj member) "id" then object
        else setField object "member" (.obj (setField member "membership" (.str "join")))
    | _ => object

/-- `normalize_member_content`: the rewritten content, and whether it is usable. -/
def normalizeMemberContent : Json → Json × MemberContent
  | .obj object =>
      if (object.lookup "slot_id").isNone then
        if (object.lookup "msc4354_sticky_key").isSome ∨ (object.lookup "sticky_key").isSome then
          (.obj object, .bareLeave)
        else (.obj object, .usable)
      else (.obj (inferMembership (liftRtcTransports (liftRoomSlotId object))), .usable)
  | content => (content, .usable)

/-- `claimed_device_id`: the device the event says it comes from. -/
def claimedDeviceId (content : Json) : Option String :=
  (((content.get "member").bind (·.get "device_id")).bind Json.asStr).filter fun d => !d.isEmpty

/-- The fields of a derived structure, by name from an object or in order from an
array of at most as many values. -/
def structFields (order : List String) : Json → Option (String → Option Json)
  | .obj fields => some fun name => fields.lookup name
  | .arr values =>
      if values.length ≤ order.length then some fun name => values[order.idxOf name]? else none
  | _ => none

/-- A field with a default. -/
def defaulted {α : Type} (parse : Json → Option α) (default : α) : Option Json → Option α
  | none => some default
  | some v => parse v

/-- An optional value: `null` is none. -/
def nullable {α : Type} (parse : Json → Option α) : Json → Option (Option α)
  | .null => some none
  | v => (parse v).map some

/-- An optional field: absent and `null` are none. -/
def optional {α : Type} (parse : Json → Option α) : Option Json → Option (Option α) :=
  defaulted (nullable parse) none

def sequence {α : Type} (parse : Json → Option α) (v : Json) : Option (List α) :=
  v.asArray.bind fun values => values.mapM parse

/-- An enumeration of unit variants with an untagged string variant last. -/
def variant {α : Type} (tagged : String → Option α) (untagged : String → α) : Json → Option α
  | .str s => some ((tagged s).getD (untagged s))
  | .obj [(name, .null)] => tagged name
  | _ => none

def parseMembership : Json → Option Membership :=
  variant (fun s => if s = "join" then some .join else if s = "leave" then some .leave else none)
    .unknown

def parseMemberInfo (v : Json) : Option MemberInfo := do
  let field ← structFields ["id", "membership"] v
  let id ← optional Json.asStr (field "id")
  let membership ← optional parseMembership (field "membership")
  return { id, membership }

/-- The fields of an object that are not `key`: what a flattened map collects. -/
def others (key : String) (fields : List (String × Json)) : List (String × Json) :=
  fields.filter fun f => f.1 != key

def parseApplicationInfo (v : Json) : Option ApplicationInfo := do
  let fields ← v.asObject
  let type ← optional Json.asStr (fields.lookup "type")
  return { type, extra := others "type" fields }

def parseRawRtcTransport (v : Json) : Option RawRtcTransport := do
  let fields ← v.asObject
  let transportType ← (fields.lookup "type").bind Json.asStr
  return { transportType, extraFields := others "type" fields }

def parseMemberTransports (v : Json) : Option MemberTransports := do
  let field ← structFields ["published", "can_subscribe"] v
  let published ← defaulted (sequence parseRawRtcTransport) [] (field "published")
  let canSubscribe ← defaulted (sequence Json.asStr) [] (field "can_subscribe")
  return { published, canSubscribe }

def parseLeaveCode : Json → Option LeaveCode :=
  variant
    (fun s =>
      if s = "leave" then some .leave
      else if s = "delayed_leave" then some .delayedLeave
      else if s = "slot_closed" then some .slotClosed
      else none)
    .other

def parseLeaveReason (v : Json) : Option LeaveReason := do
  let field ← structFields ["code", "reason"] v
  let code ← (field "code").bind parseLeaveCode
  let reason ← optional Json.asStr (field "reason")
  return { code, reason }

/-- Both spellings of the sticky key are accepted, and together only when they agree. -/
def singleStickyKey : Json → Option Json
  | .obj fields =>
      match fields.lookup "sticky_key" with
      | none => some (.obj fields)
      | some stable =>
          match fields.lookup "msc4354_sticky_key" with
          | none => some (.obj (setField (others "sticky_key" fields) "msc4354_sticky_key" stable))
          | some unstable =>
              if unstable = stable then some (.obj (others "sticky_key" fields)) else none
  | v => some v

/-- The parse of a whole content. -/
def parseRawStickyEventContent (v : Json) : Option RawStickyEventContent := do
  let v ← singleStickyKey v
  let field ← structFields
    ["slot_id", "msc4354_sticky_key", "member", "application", "transports", "leave_reason",
      "created_ts"] v
  let slotId ← (field "slot_id").bind Json.asStr
  let stickyKey ← (field "msc4354_sticky_key").bind Json.asStr
  let member ← defaulted parseMemberInfo ⟨none, none⟩ (field "member")
  let application ← defaulted parseApplicationInfo ⟨none, []⟩ (field "application")
  let transports ← optional parseMemberTransports (field "transports")
  let leaveReason ← optional parseLeaveReason (field "leave_reason")
  let createdTs ← optional Json.asU64 (field "created_ts")
  return { slotId, stickyKey, member, application, transports, leaveReason, createdTs }

end MatrixRtc.MemberContents

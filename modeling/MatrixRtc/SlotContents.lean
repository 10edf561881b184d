import MatrixRtc.RoomFeeder

/-!
# The content of a slot event

A slot is opened and closed by sending a state event, whose content is built from the
application and the encryption object the caller names and is read back by everybody in the
room. This module follows the content from the caller to what a room makes of it: a slot
opened under a name that starts with its type reads as open for that type, unless the type is
empty, the encryption object cannot be read or the room's encryption forbids it.
-/
namespace MatrixRtc.SlotContents
open JsonValues MemberEvents MemberContents RoomSlots RoomFeeder

/-- `wire_event_type`: the identifier that goes on the wire. -/
def wireEventType (eventType : String) : String :=
  if eventType = "m.rtc.member" then "org.matrix.msc4143.rtc.member"
  else if eventType = "m.rtc.slot" then "org.matrix.msc4143.rtc.slot"
  else if eventType = "m.rtc.encryption_key" then "org.matrix.msc4143.rtc.encryption_key"
  else if eventType = "m.rtc.notification" then "org.matrix.msc4075.rtc.notification"
  else eventType

/-- `RawSlotEventContent::for_open`. -/
def forOpen (applicationType : String) (encryption : Option SlotEncryption) :
    RawSlotEventContent :=
  { status := some .open
    application := ⟨some applicationType, []⟩
    encryption := encryption }

/-- `RawSlotEventContent::for_close`. -/
def forClose : RawSlotEventContent :=
  { status := some .closed
    application := ⟨none, []⟩
    encryption := none }

def slotStatusToJson : SlotStatus → Json
  | .open => .str "open"
  | .closed => .str "closed"
  | .unknown status => .str status

/-- Fields flattened into the object they stand beside: one of the same name replaces it. -/
def flatten (extra object : List (String × Json)) : List (String × Json) :=
  extra.foldr (fun field fields => setField fields field.1 field.2) object

def applicationInfoToJson (a : ApplicationInfo) : Json :=
  .obj (flatten a.extra [("type", a.type.elim .null .str)])

def slotEncryptionToJson (e : SlotEncryption) : Json :=
  .obj (flatten e.extra [("type", .str e.encryptionType)])

/-- `ApplicationInfo::is_empty`. -/
def isEmptyApplication (a : ApplicationInfo) : Bool := a.type.isNone && a.extra.isEmpty

def rawSlotEventContentToJson (c : RawSlotEventContent) : Json :=
  .obj ((c.status.toList.map fun status => ("status", slotStatusToJson status)) ++
    (if isEmptyApplication c.application then []
      else [("application", applicationInfoToJson c.application)]) ++
    c.encryption.toList.map fun encryption => ("encryption", slotEncryptionToJson encryption))

/-- A state event on its way to the backend. -/
structure StateEvent where
  eventType : String
  stateKey : String
  content : Json
deriving DecidableEq

/-- `send_slot_state`, up to the backend, if there is one. -/
def sendSlotState (backend : Bool) (slotId : String) (content : RawSlotEventContent) :
    Except String StateEvent :=
  if backend then .ok ⟨slotEventType, slotId, rawSlotEventContentToJson content⟩
  else .error "no backend configured"

/-- `open_slot`. -/
def openSlot (backend : Bool) (slotId applicationType : String)
    (encryption : Option SlotEncryption) : Except String StateEvent :=
  if !startsWith slotId (applicationType ++ "#") then
    .error ("slot id '" ++ slotId ++ "' does not match application type '" ++ applicationType ++
      "': MSC4143 requires the state key to be '\x7bapplication_type\x7d#\x7bslot\x7d'")
  else sendSlotState backend slotId (forOpen applicationType encryption)

/-- `close_slot`. -/
def closeSlot (backend : Bool) (slotId : String) : Except String StateEvent :=
  sendSlotState backend slotId forClose

/-- Encryption objects that state the same. -/
structure Same (e e' : SlotEncryption) : Prop where
  type : e.encryptionType = e'.encryptionType
  extra : ∀ name, e.extra.lookup name = e'.extra.lookup name

/-- What an encryption object states once its extra fields stand beside its type. -/
def stated (e : SlotEncryption) : Option SlotEncryption :=
  ((e.extra.lookup "type").getD (.str e.encryptionType)).asStr.map fun encryptionType =>
    { encryptionType, extra := others "type" e.extra }

/-- What a slot opened with these arguments declares, if it can be read. -/
def declared : Option SlotEncryption → Option (Option SlotEncryption)
  | none => some none
  | some encryption => (stated encryption).map some

/-- A supported mechanism is required in an encrypted room and none is used in an unencrypted
one; a room nobody has reported takes the slot's own. -/
def Agrees (encryption : Option SlotEncryption) (mechanism : Option EncryptionMechanism) :
    RoomEncryption → Prop
  | .encrypted =>
      encryption.map SlotEncryption.mechanism = some .perMember ∧ mechanism = some .perMember
  | .unencrypted => mechanism = none
  | .unknown => mechanism = encryption.map SlotEncryption.mechanism

/-- How a slot opened for an application reads in a room. -/
def ReadsOpened (applicationType : String) (encryption : Option SlotEncryption)
    (room : RoomEncryption) : SlotState → Prop
  | .open slot =>
      applicationType ≠ "" ∧ slot.applicationType = applicationType ∧ slot.applicationExtra = [] ∧
        ∃ e, declared encryption = some e ∧ Option.Rel Same slot.encryption e ∧
          Agrees e slot.mechanism room
  | .closed =>
      applicationType = "" ∨ declared encryption = none ∨
        room = .encrypted ∧ ∀ e ∈ declared encryption,
          e.map SlotEncryption.mechanism ≠ some .perMember

section Content
variable {extra object : List (String × Json)} {name : String}

theorem lookup_flatten :
    (flatten extra object).lookup name = (extra.lookup name).or (object.lookup name) := by
  induction extra with
  | nil => rfl
  | cons field rest ih =>
      obtain ⟨key, value⟩ := field
      change (setField (flatten rest object) key value).lookup name = _
      by_cases same : name = key
      · subst same
        rw [lookup_setField_self, List.lookup_cons_self, Option.some_or]
      · rw [lookup_setField_ne same, ih, List.lookup_cons, beq_eq_false_iff_ne.mpr same]

theorem lookup_others_self {fields : List (String × Json)} {key : String} :
    (others key fields).lookup key = none := by
  rw [ListPlaces.lookup_eq_none]
  intro field there
  simpa using (List.mem_filter.mp there).2

theorem lookup_others_flatten {encryptionType : Json} :
    (others "type" (flatten extra [("type", encryptionType)])).lookup name =
      (others "type" extra).lookup name := by
  by_cases is_type : name = "type"
  · rw [is_type, lookup_others_self, lookup_others_self]
  · have beside : ([("type", encryptionType)] : List (String × Json)).lookup name = none := by
      rw [List.lookup_cons, beq_eq_false_iff_ne.mpr is_type, List.lookup_nil]
    rw [others, others, ListPlaces.lookup_filter_ne is_type, ListPlaces.lookup_filter_ne is_type,
      lookup_flatten, beside, Option.or_none]

/-- An encryption object is read as what it states, or not at all. -/
theorem parse_encryption (e : SlotEncryption) :
    Option.Rel Same (parseSlotEncryption (slotEncryptionToJson e)) (stated e) := by
  have type : (flatten e.extra [("type", .str e.encryptionType)]).lookup "type" =
      some ((e.extra.lookup "type").getD (.str e.encryptionType)) := by
    rw [lookup_flatten, List.lookup_cons_self]
    cases e.extra.lookup "type" with
    | none => rfl
    | some value => rfl
  have read : parseSlotEncryption (slotEncryptionToJson e) =
      ((e.extra.lookup "type").getD (.str e.encryptionType)).asStr.map fun encryptionType =>
        ⟨encryptionType, others "type" (flatten e.extra [("type", .str e.encryptionType)])⟩ := by
    simp only [parseSlotEncryption, slotEncryptionToJson, Json.asObject, Option.bind_eq_bind,
      Option.bind_some, type]
    cases ((e.extra.lookup "type").getD (.str e.encryptionType)).asStr with
    | none => rfl
    | some encryptionType => rfl
  rw [read, stated]
  cases ((e.extra.lookup "type").getD (.str e.encryptionType)).asStr with
  | none => exact .none
  | some encryptionType => exact .some ⟨rfl, fun _ => lookup_others_flatten⟩

theorem parse_opened {applicationType : String} {encryption : Option SlotEncryption} :
    parseRawSlotEventContent (rawSlotEventContentToJson (forOpen applicationType encryption)) =
      (encryption.elim (some none) fun e =>
        (parseSlotEncryption (slotEncryptionToJson e)).map some).map (forOpen applicationType) := by
  cases encryption with
  | none => rfl
  | some e =>
      change (((parseSlotEncryption (slotEncryptionToJson e)).map some).bind fun encryption =>
        some (forOpen applicationType encryption)) =
          ((parseSlotEncryption (slotEncryptionToJson e)).map some).map (forOpen applicationType)
      cases parseSlotEncryption (slotEncryptionToJson e) with
      | none => rfl
      | some read => rfl

/-- What is read of the encryption is what the slot declares. -/
theorem read_declared (encryption : Option SlotEncryption) :
    Option.Rel (Option.Rel Same)
      (encryption.elim (some none) fun e =>
        (parseSlotEncryption (slotEncryptionToJson e)).map some)
      (declared encryption) := by
  cases encryption with
  | none => exact .some .none
  | some e =>
      have same := parse_encryption e
      simp only [Option.elim, declared]
      generalize parseSlotEncryption (slotEncryptionToJson e) = read at *
      generalize stated e = states at *
      cases same with
      | none => exact .none
      | some same => exact .some (.some same)

theorem mechanism_same {e e' : Option SlotEncryption} (same : Option.Rel Same e e') :
    e.map SlotEncryption.mechanism = e'.map SlotEncryption.mechanism := by
  cases same with
  | none => rfl
  | some same => rw [Option.map_some, Option.map_some, SlotEncryption.mechanism, same.type]; rfl

theorem negotiated_agrees {e : Option SlotEncryption} {room : RoomEncryption}
    {mechanism : Option EncryptionMechanism}
    (h : negotiatedMechanism (e.map SlotEncryption.mechanism) room = some mechanism) :
    Agrees e mechanism room := by
  cases room with
  | unknown => exact (Option.some.inj h).symm
  | unencrypted => exact (Option.some.inj h).symm
  | encrypted =>
      cases is_declared : e.map SlotEncryption.mechanism with
      | none =>
          rw [is_declared] at h
          cases h
      | some m =>
          rw [is_declared] at h
          cases m with
          | perMember => exact ⟨is_declared, (Option.some.inj h).symm⟩
          | unsupported name => cases h

theorem not_negotiated {e : Option SlotEncryption} {room : RoomEncryption}
    (h : negotiatedMechanism (e.map SlotEncryption.mechanism) room = none) :
    room = .encrypted ∧ e.map SlotEncryption.mechanism ≠ some .perMember := by
  cases room with
  | unknown => cases h
  | unencrypted => cases h
  | encrypted =>
      refine ⟨rfl, fun supported => ?_⟩
      rw [supported] at h
      cases h

/-- A slot that starts with its type and was opened is read as it was opened. -/
theorem reads_opened {roomId slotId applicationType : String}
    {encryption : Option SlotEncryption} {room : RoomEncryption}
    (starts : startsWith slotId (applicationType ++ "#") = true) :
    ReadsOpened applicationType encryption room (RawSlotEvent.resolve
      ⟨roomId, slotId, (parseRawSlotEventContent (rawSlotEventContentToJson
        (forOpen applicationType encryption))).getD ⟨none, ⟨none, []⟩, none⟩⟩ room) := by
  rw [parse_opened]
  have same := read_declared encryption
  generalize (encryption.elim (some none) fun e =>
    (parseSlotEncryption (slotEncryptionToJson e)).map some) = read at *
  generalize stands : declared encryption = states at same
  cases same with
  | none => exact .inr (.inl stands)
  | @some e e' same =>
      by_cases unnamed : applicationType = ""
      · subst unnamed
        exact .inl rfl
      have named : ApplicationInfo.applicationType ⟨some applicationType, []⟩ =
          some applicationType := by
        simp [ApplicationInfo.applicationType, Option.filter, unnamed]
      simp only [Option.map_some, Option.getD_some, RawSlotEvent.resolve, forOpen, named, starts]
      cases negotiated : negotiatedMechanism (e.map SlotEncryption.mechanism) room with
      | none =>
          obtain ⟨encrypted, unsupported⟩ := not_negotiated negotiated
          refine .inr (.inr ⟨encrypted, fun e'' is => ?_⟩)
          cases stands.symm.trans is
          rwa [← mechanism_same same]
      | some mechanism =>
          refine ⟨unnamed, rfl, rfl, e', stands, same, ?_⟩
          have agrees := negotiated_agrees negotiated
          cases room <;> simpa only [Agrees, mechanism_same same] using agrees

theorem reads_closed {roomId slotId : String} {room : RoomEncryption} :
    RawSlotEvent.resolve
      ⟨roomId, slotId, (parseRawSlotEventContent (rawSlotEventContentToJson forClose)).getD
        ⟨none, ⟨none, []⟩, none⟩⟩ room = .closed := rfl

end Content

end MatrixRtc.SlotContents

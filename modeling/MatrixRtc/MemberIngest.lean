import MatrixRtc.MemberContents

/-!
# From delivered events to core memberships

A member event as the client delivers it, and the sticky event the core is fed for
it: its content normalised and parsed, its origin ranked from what decryption
reported and what the content claims. The membership translated from room state is
a parameter; the current format reads none.
-/
namespace MatrixRtc.MemberIngest
open JsonValues MemberEvents MemberContents

inductive EventEncryption where
  | cleartext
  | encrypted (senderDeviceId : Option String) (senderConfirmed : Option Bool)
deriving DecidableEq, Repr

def EventEncryption.senderDeviceId : EventEncryption → Option String
  | .encrypted device _ => device
  | .cleartext => none

def EventEncryption.wasEncrypted : EventEncryption → Bool
  | .encrypted _ _ => true
  | .cleartext => false

structure EventIn where
  eventId : String
  sender : String
  eventType : String
  stateKey : Option String
  originServerTs : ℕ
  content : Json
  encryption : EventEncryption
deriving DecidableEq

structure RawMemberEventIn where
  eventId : Option String
  sender : String
  senderDeviceId : Option String
  wasEncrypted : Option Bool
  originServerTs : Option ℕ
  eventType : String
  content : Json
deriving DecidableEq

structure LegacyStateMemberEventIn where
  eventId : Option String
  sender : String
  stateKey : String
  originServerTs : ℕ
  content : Json
deriving DecidableEq

/-- The origin of a member event: an authenticated device first, then one the
content claims, then what is known without a device. -/
def memberOrigin (wasEncrypted : Option Bool) (device claimed : Option String) : EventOrigin :=
  match wasEncrypted with
  | some true =>
      match device with
      | some d => .encrypted (some d)
      | none => (claimed.map EventOrigin.claimed).getD (.encrypted none)
  | some false => (claimed.map EventOrigin.claimed).getD .cleartext
  | none => (claimed.map EventOrigin.claimed).getD .unknown

/-- `to_core_member_event`: nothing for a bare leave or a content that does not parse. -/
def toCoreMemberEvent (roomId : String) (event : RawMemberEventIn) : Option RawStickyEvent :=
  match normalizeMemberContent event.content with
  | (_, .bareLeave) => none
  | (value, .usable) =>
      (parseRawStickyEventContent value).map fun content =>
        { roomId := roomId
          eventId := event.eventId
          sender := event.sender
          origin := memberOrigin event.wasEncrypted event.senderDeviceId (claimedDeviceId value)
          eventType := event.eventType
          originServerTs := event.originServerTs
          content := content }

def toMemberEventIn (event : EventIn) : RawMemberEventIn :=
  { eventId := some event.eventId
    sender := event.sender
    senderDeviceId := event.encryption.senderDeviceId
    wasEncrypted := some event.encryption.wasEncrypted
    originServerTs := some event.originServerTs
    eventType := event.eventType
    content := event.content }

def toLegacyStateMemberEventIn (event : EventIn) : Option LegacyStateMemberEventIn :=
  event.stateKey.map fun stateKey =>
    { eventId := some event.eventId
      sender := event.sender
      stateKey := stateKey
      originServerTs := event.originServerTs
      content := event.content }

/-- How a room's membership is read: `IngestDialect`, without its media keys. -/
structure IngestDialect where
  membershipStateEventTypes : List String
  readsSlots : Bool
  currentMembership : String → List EventIn → List EventIn → List RawStickyEvent

inductive MembershipFormat where
  | msc
  | roomState
deriving DecidableEq, Repr

section
variable (translate : String → List LegacyStateMemberEventIn → List RawStickyEvent)

/-- `merge_current_membership`: a sticky membership wins over a translated one with
the same key. -/
def mergeCurrentMembership (roomId : String) (members : List RawMemberEventIn)
    (state : List LegacyStateMemberEventIn) : List RawStickyEvent :=
  let current := members.filterMap (toCoreMemberEvent roomId)
  if state.isEmpty then current
  else
    current ++ (translate roomId state).filter fun event =>
      event.content.stickyKey ∉ current.map (·.content.stickyKey)

/-- How each format reads a room. -/
def MembershipFormat.dialect (format : MembershipFormat) : IngestDialect :=
  { membershipStateEventTypes :=
      if format = .roomState then ["org.matrix.msc3401.call.member"] else []
    readsSlots := format ≠ .roomState
    currentMembership := fun roomId sticky state =>
      mergeCurrentMembership translate roomId (sticky.map toMemberEventIn)
        (state.filterMap toLegacyStateMemberEventIn) }

end

/-- A cleartext event has the origin its content claims, or that of the clear. -/
theorem toCoreMemberEvent_cleartext {roomId : String} {e : EventIn} {raw : RawStickyEvent}
    (h : toCoreMemberEvent roomId (toMemberEventIn e) = some raw)
    (clear : e.encryption = .cleartext) :
    raw.origin = .cleartext ∨
      ∃ device, claimedDeviceId (normalizeMemberContent e.content).1 = some device ∧
        raw.origin = .claimed device := by
  unfold toCoreMemberEvent at h
  split at h
  · cases h
  · rename_i value normalized
    obtain ⟨content, -, rfl⟩ := Option.map_eq_some_iff.mp h
    have same : (normalizeMemberContent e.content).1 = value := congrArg Prod.fst normalized
    rw [same]
    cases claim : claimedDeviceId value with
    | none =>
        exact Or.inl (by simp [toMemberEventIn, clear, EventEncryption.wasEncrypted, memberOrigin])
    | some device =>
        exact Or.inr ⟨device, rfl, by
          simp [toMemberEventIn, clear, EventEncryption.wasEncrypted, memberOrigin]⟩

end MatrixRtc.MemberIngest

import MatrixRtc.MemberEvents

/-!
# Room slots

The `m.rtc.slot` state event and the slot it resolves to. A slot is open only when
its status says so, its application names a type and the slot id starts with that
type; the room's encryption decides the mechanism, and in an encrypted room a slot
without a supported one is closed.
-/
namespace MatrixRtc.RoomSlots
open JsonValues MemberEvents

inductive SlotStatus where
  | open
  | closed
  | unknown (status : String)
deriving DecidableEq, Repr

/-- Whether the room is encrypted, as far as a host has said. -/
inductive RoomEncryption where
  | unknown
  | encrypted
  | unencrypted
deriving DecidableEq, Repr

inductive EncryptionMechanism where
  | perMember
  | unsupported (name : String)
deriving DecidableEq, Repr

def EncryptionMechanism.fromType (encryptionType : String) : EncryptionMechanism :=
  if encryptionType = "m.per_member" ∨ encryptionType = "org.matrix.msc4143.per_member" then
    .perMember
  else .unsupported encryptionType

def EncryptionMechanism.isSupported : EncryptionMechanism → Bool
  | .perMember => true
  | .unsupported _ => false

structure SlotEncryption where
  encryptionType : String
  extra : List (String × Json)
deriving DecidableEq

def SlotEncryption.mechanism (e : SlotEncryption) : EncryptionMechanism :=
  .fromType e.encryptionType

structure RawSlotEventContent where
  status : Option SlotStatus
  application : ApplicationInfo
  encryption : Option SlotEncryption
deriving DecidableEq

structure RawSlotEvent where
  roomId : String
  slotId : String
  content : RawSlotEventContent
deriving DecidableEq

structure OpenSlot where
  applicationType : String
  applicationExtra : List (String × Json)
  encryption : Option SlotEncryption
  mechanism : Option EncryptionMechanism
deriving DecidableEq

inductive SlotState where
  | open (slot : OpenSlot)
  | closed
deriving DecidableEq

def SlotState.isOpen : SlotState → Bool
  | .open _ => true
  | .closed => false

/-- The mechanism members must use, or nothing when the room's encryption closes
the slot. -/
def negotiatedMechanism (declared : Option EncryptionMechanism) :
    RoomEncryption → Option (Option EncryptionMechanism)
  | .encrypted =>
      match declared with
      | some mechanism => if mechanism.isSupported then some (some mechanism) else none
      | none => none
  | .unencrypted => some none
  | .unknown => some declared

/-- `RawSlotEvent::resolve`. -/
def RawSlotEvent.resolve (e : RawSlotEvent) (encryption : RoomEncryption) : SlotState :=
  if e.content.status ≠ some .open then .closed
  else
    match e.content.application.applicationType with
    | none => .closed
    | some applicationType =>
        if !startsWith e.slotId (applicationType ++ "#") then .closed
        else
          match negotiatedMechanism (e.content.encryption.map SlotEncryption.mechanism)
              encryption with
          | none => .closed
          | some mechanism =>
              .open
                { applicationType := applicationType
                  applicationExtra := e.content.application.extra
                  encryption := e.content.encryption
                  mechanism := mechanism }

end MatrixRtc.RoomSlots

import MatrixRtc.Base64
import MatrixRtc.InboundStores
import MatrixRtc.KeyRollout
import MatrixRtc.LegacyKeyMessages
import MatrixRtc.MemberContents

/-!
# Keys on the wire

The content a key is sent in, and how a key message is read and taken in. The base64 crate is a
parameter: its `STANDARD` engine writes the padded form and reads nothing else, while the format
a key is sent under is raw bytes in unpadded base64. Both are one text exactly where the bytes
come in groups of three.
-/
namespace MatrixRtc.KeyWire
open JsonValues HostAnswers MemberEvents MemberIngest MemberContents EncryptionManagers
open InboundKeys InboundStores KeyRollout LegacyKeyMessages

/-- `general_purpose::STANDARD`. -/
structure Engine where
  encode : List UInt8 → String
  decode : String → Except String (List UInt8)

structure Engine.Standard (e : Engine) : Prop where
  encodes : ∀ bytes, e.encode bytes = Base64.padded bytes
  decodes : ∀ text bytes, e.decode text = .ok bytes ↔ text = Base64.padded bytes

/-- The content `deliver_key` sends. -/
def keyMessage (e : Engine) (send : KeySend) : Json :=
  keyContent send.roomId send.memberId (e.encode send.key) send.keyIndex

/-- `media_key.key`. -/
def mediaKeyText (content : Json) : Option String :=
  ((content.get "media_key").bind (·.get "key")).bind Json.asStr

theorem mediaKeyText_keyMessage (e : Engine) (send : KeySend) :
    mediaKeyText (keyMessage e send) = some (e.encode send.key) := rfl

structure ToDeviceMessageIn where
  sender : String
  eventType : String
  content : Json
  encryption : EventEncryption
deriving DecidableEq

/-- An unreported confirmation is none. -/
def keyOrigin (encryption : EventEncryption) (sender : String) : KeyOrigin :=
  match encryption with
  | .cleartext => .cleartext
  | .encrypted device confirmed => .encrypted sender device (confirmed.getD false)

def parseMediaKey (v : Json) : Option (UInt8 × String) := do
  let field ← structFields ["index", "key"] v
  let index ← ((field "index").bind Json.asU64).bind toU8
  let key ← (field "key").bind Json.asStr
  return (index, key)

/-- `parse_key_message`; a type beyond the two is the room's dialect's. -/
def parseKeyMessage (dialect : ToDeviceMessageIn → Option ReceivedEncryptionKey)
    (message : ToDeviceMessageIn) : Option ReceivedEncryptionKey :=
  if message.eventType ∉ keyEventTypes then dialect message
  else do
    let field ← structFields ["room_id", "member_id", "media_key"] message.content
    let roomId ← (field "room_id").bind Json.asStr
    let memberId ← (field "member_id").bind Json.asStr
    let (keyIndex, keyB64) ← (field "media_key").bind parseMediaKey
    return {
      origin := keyOrigin message.encryption message.sender
      roomId := roomId
      memberId := memberId
      keyB64 := keyB64
      keyIndex := keyIndex }

variable {dialect : ToDeviceMessageIn → Option ReceivedEncryptionKey}

theorem toU8_toNat (index : UInt8) : toU8 index.toNat = some index := by
  simp [toU8, index.toNat_lt]

theorem parseKeyMessage_keyMessage (e : Engine) (send : KeySend) (sender eventType : String)
    (encryption : EventEncryption) (typed : eventType ∈ keyEventTypes) :
    parseKeyMessage dialect ⟨sender, eventType, keyMessage e send, encryption⟩ =
      some ⟨keyOrigin encryption sender, send.roomId, send.memberId, e.encode send.key,
        send.keyIndex⟩ := by
  rw [parseKeyMessage, if_neg (not_not_intro typed)]
  change ((toU8 send.keyIndex.toNat).bind _ |>.bind _) = _
  rw [toU8_toNat]
  rfl

theorem get_eq_some {v : Json} {name : String} {value : Json} (h : v.get name = some value) :
    ∃ fields, v = .obj fields ∧ fields.lookup name = some value := by
  obtain ⟨fields, object, found⟩ := Option.bind_eq_some_iff.mp h
  cases v with
  | obj fields =>
      cases object
      exact ⟨_, rfl, found⟩
  | _ => cases object

/-- The text read from a key message is its `media_key.key`. -/
theorem parseKeyMessage_keyB64 {message : ToDeviceMessageIn} {received : ReceivedEncryptionKey}
    {text : String} (typed : message.eventType ∈ keyEventTypes)
    (parsed : parseKeyMessage dialect message = some received)
    (carried : mediaKeyText message.content = some text) : received.keyB64 = text := by
  obtain ⟨value, hvalue, isText⟩ := Option.bind_eq_some_iff.mp carried
  obtain ⟨mediaKey, hmedia, hkey⟩ := Option.bind_eq_some_iff.mp hvalue
  obtain ⟨fields, content, atMedia⟩ := get_eq_some hmedia
  obtain ⟨inner, media, atKey⟩ := get_eq_some hkey
  rw [parseKeyMessage, if_neg (not_not_intro typed), content] at parsed
  obtain ⟨field, hfield, parsed⟩ := Option.bind_eq_some_iff.mp parsed
  cases hfield
  obtain ⟨roomId, -, parsed⟩ := Option.bind_eq_some_iff.mp parsed
  obtain ⟨memberId, -, parsed⟩ := Option.bind_eq_some_iff.mp parsed
  obtain ⟨⟨keyIndex, keyB64⟩, hpair, parsed⟩ := Option.bind_eq_some_iff.mp parsed
  cases parsed
  dsimp only at hpair
  rw [atMedia, media] at hpair
  obtain ⟨field, hfield, hpair⟩ := Option.bind_eq_some_iff.mp hpair
  cases hfield
  obtain ⟨index, -, hpair⟩ := Option.bind_eq_some_iff.mp hpair
  obtain ⟨key, hread, hpair⟩ := Option.bind_eq_some_iff.mp hpair
  cases hpair
  dsimp only at hread
  rw [atKey] at hread
  exact Option.some.inj (hread.symm.trans isText)

/-- A key message that passes every check, and is not older than what the filter has seen. -/
structure Verified (m : EncryptionManager) (roster : List JoinedMembership)
    (received : ReceivedEncryptionKey) (now : ℕ) (s : JoinedMembership) : Prop where
  origin : verifyOrigin m received = .ok ()
  known : membershipOf roster received.memberId = some s
  member : verifyAgainstMembership received.origin s = .ok ()
  current : isOutdated (cleanup m.keyBuffer now) received.memberId received.keyIndex now = false

/-- The bytes are stored under the member id and the index, and signalled where that changes
what is held there. -/
def TakesIn (decode : String → Except String (List UInt8)) (m : EncryptionManager)
    (roster : List JoinedMembership) (received : ReceivedEncryptionKey) (now : ℕ)
    (s : JoinedMembership) (bytes : List UInt8) : Prop :=
  let after := receiveKey decode m roster received now
  after.2.1 = .ok .accepted ∧
    heldAt after.1.inboundKeys received.memberId received.keyIndex = some bytes ∧
    after.2.2 = acceptedEmissions m ⟨bytes, received.keyIndex, received.memberId, now⟩
      received.origin s

section
variable {decode : String → Except String (List UInt8)} {m : EncryptionManager}
variable {roster : List JoinedMembership} {received : ReceivedEncryptionKey} {now : ℕ}
variable {s : JoinedMembership}

theorem takesIn_iff (verified : Verified m roster received now s) (bytes : List UInt8) :
    TakesIn decode m roster received now s bytes ↔ decode received.keyB64 = .ok bytes := by
  unfold TakesIn
  rw [receiveKey, verified.origin]
  cases decoded : decode received.keyB64 with
  | error e => simp
  | ok own =>
      rw [verified.known]
      dsimp only
      rw [acceptVerifiedKey_eq verified.member verified.current, heldAt_stored]
      simp only [and_self, if_true, true_and, Option.some.injEq, Except.ok.injEq,
        and_iff_left_iff_imp]
      rintro rfl
      rfl

end

/-- Every send of these bytes carries them in unpadded form. -/
def SentUnpadded (e : Engine) (bytes : List UInt8) : Prop :=
  (∀ m p send, rolloutSend m p = some send → send.key = bytes →
    mediaKeyText (keyMessage e send) = some (Base64.unpadded bytes)) ∧
  ∀ m r, r.key.key = bytes →
    mediaKeyText (keyMessage e (retrySend m r)) = some (Base64.unpadded bytes)

/-- Every verified message that carries these bytes, padded or not, is taken in with them. -/
def TakenFromBoth (e : Engine) (bytes : List UInt8) : Prop :=
  ∀ dialect message received m roster now s, message.eventType ∈ keyEventTypes →
    parseKeyMessage dialect message = some received →
    mediaKeyText message.content = some (Base64.unpadded bytes) ∨
      mediaKeyText message.content = some (Base64.padded bytes) →
    Verified m roster received now s → TakesIn e.decode m roster received now s bytes

section
variable {e : Engine} {bytes : List UInt8}

/-- Bob's membership and his message of the concrete runs. -/
def bobsMembership : JoinedMembership := callMembership "@bob:x" "B" "bob" "b"

def bobsSend (bytes : List UInt8) : KeySend := ⟨"!room:x", "bob", 0, bytes, 0, []⟩

def bobsMessage (content : Json) : ToDeviceMessageIn :=
  ⟨"@bob:x", "m.rtc.encryption_key", content, .encrypted (some "B") (some true)⟩

theorem bobsMessage_verified (text : String) :
    Verified (.new alice) [bobsMembership]
      ⟨.encrypted "@bob:x" (some "B") true, "!room:x", "bob", text, 0⟩ 0 bobsMembership where
  origin := rfl
  known := rfl
  member := rfl
  current := rfl

theorem sentUnpadded_iff (std : e.Standard) :
    SentUnpadded e bytes ↔ bytes.length % 3 = 0 := by
  have same : ∀ send : KeySend, send.key = bytes →
      (mediaKeyText (keyMessage e send) = some (Base64.unpadded bytes) ↔
        bytes.length % 3 = 0) := by
    intro send carried
    rw [mediaKeyText_keyMessage, carried, std.encodes, Option.some.injEq, eq_comm,
      Base64.unpadded_eq_padded_iff]
  constructor
  · intro h
    let target : ParticipantDeviceInfo := ⟨"@bob:x", "B", "bob", none⟩
    have sent := h.2 (.new alice) ⟨⟨target, 0⟩, ⟨bytes, 0, 0, []⟩,
      ⟨target, bobsMembership, ⟨"@bob:x", "B"⟩⟩⟩ rfl
    exact (same _ rfl).mp sent
  · intro threes
    exact ⟨fun m p send _ carried => (same send carried).mpr threes,
      fun m r carried => (same (retrySend m r) carried).mpr threes⟩

theorem takenFromBoth_iff (std : e.Standard) :
    TakenFromBoth e bytes ↔ bytes.length % 3 = 0 := by
  rw [← Base64.unpadded_eq_padded_iff]
  constructor
  · intro h
    -- an engine that writes the unpadded form sends this one
    let writer : Engine := ⟨Base64.unpadded, e.decode⟩
    let content := keyMessage writer (bobsSend bytes)
    have typed : (bobsMessage content).eventType ∈ keyEventTypes := List.mem_cons_self
    have read : parseKeyMessage (fun _ => none) (bobsMessage content) = _ :=
      parseKeyMessage_keyMessage writer (bobsSend bytes) "@bob:x" "m.rtc.encryption_key"
        (.encrypted (some "B") (some true)) typed
    have taken := h _ _ _ _ _ 0 bobsMembership typed read (.inl rfl) (bobsMessage_verified _)
    exact (std.decodes _ _).mp ((takesIn_iff (bobsMessage_verified _) _).mp taken)
  · intro same dialect message received m roster now s typed parsed carried verified
    rw [takesIn_iff verified, std.decodes]
    rw [same, or_self] at carried
    exact parseKeyMessage_keyB64 typed parsed carried

/-- A key survives in the documented format exactly where its length is a multiple of three. -/
theorem survives_iff (std : e.Standard) :
    SentUnpadded e bytes ∧ TakenFromBoth e bytes ↔ bytes.length % 3 = 0 := by
  rw [sentUnpadded_iff std, takenFromBoth_iff std, and_self]

end

/-- The engine of the concrete runs. -/
def standard : Engine := ⟨Base64.padded, Base64.decode⟩

theorem standard_standard : standard.Standard where
  encodes _ := rfl
  decodes _ _ := Base64.decode_eq_ok_iff

theorem survives_threeBytes :
    SentUnpadded standard [1, 2, 3] ∧ TakenFromBoth standard [1, 2, 3] :=
  (survives_iff standard_standard).mpr rfl

/-- As long as every key a manager makes. -/
def minted : List UInt8 := List.replicate 32 7

theorem minted_does_not_survive :
    mediaKeyText (keyMessage standard (bobsSend minted)) ≠ some (Base64.unpadded minted) ∧
      heldAt (receiveKey standard.decode (.new alice) [bobsMembership]
        ⟨.encrypted "@bob:x" (some "B") true, "!room:x", "bob", Base64.unpadded minted, 0⟩
        0).1.inboundKeys "bob" 0 = none ∧
      ¬ ∀ bytes, SentUnpadded standard bytes ∧ TakenFromBoth standard bytes := by
  refine ⟨by decide +kernel, by decide +kernel, fun all => ?_⟩
  have threes := (sentUnpadded_iff standard_standard).mp (all minted).1
  exact absurd threes (by decide)

end MatrixRtc.KeyWire

import MatrixRtc.InboundKeys

/-!
# Whether another user can suppress a key

A received key is checked against the first membership listed under the member id
it names. Member ids are stated by their senders, so another user's membership can
stand first under the same id; the genuine key is then checked against it and
rejected. This module compares the receipt of a message with the one it would have
if only its own sender's memberships were listed.
-/
namespace MatrixRtc.KeyAcceptance
open HostAnswers MemberEvents EncryptionManagers InboundKeys

section
variable (decode : String → Except String (List UInt8)) (m : EncryptionManager)

/-- The message is accepted: verified, not outdated, and stored unless held already. -/
def Accepted (roster : List JoinedMembership) (message : ReceivedEncryptionKey) (now : ℕ) :
    Prop :=
  (receiveKey decode m roster message now).2.1 = .ok .accepted

/-- The memberships of one user. -/
def membershipsOf (roster : List JoinedMembership) (user : String) : List JoinedMembership :=
  roster.filter fun s => s.sender == user

/-- What rejects a message whoever else is listed: another room, a key that does not
decode, the sender's own first membership under the id, or newer material. -/
def RejectedAlone (roster : List JoinedMembership) (message : ReceivedEncryptionKey) (now : ℕ)
    (user : String) : Prop :=
  message.roomId ≠ m.roomId ∨
    (∀ bytes, decode message.keyB64 ≠ .ok bytes) ∨
    (∃ s ∈ membershipOf (membershipsOf roster user) message.memberId,
      verifyAgainstMembership message.origin s ≠ .ok ()) ∨
    isOutdated (cleanup m.keyBuffer now) message.memberId message.keyIndex now = true

end

section
variable {decode : String → Except String (List UInt8)} {m : EncryptionManager}
variable {roster : List JoinedMembership} {message : ReceivedEncryptionKey} {now : ℕ}

theorem acceptVerifiedKey_accepted_iff {key : InboundEncryptionKey} {origin : KeyOrigin}
    {s : JoinedMembership} :
    (acceptVerifiedKey m key origin s).2.1 = .accepted ↔
      verifyAgainstMembership origin s = .ok () ∧
        isOutdated (cleanup m.keyBuffer key.creationTs) key.memberId key.keyIndex
          key.creationTs = false := by
  unfold acceptVerifiedKey checkAndAdd
  cases verifyAgainstMembership origin s with
  | error reason => simp
  | ok _ =>
      cases isOutdated (cleanup m.keyBuffer key.creationTs) key.memberId key.keyIndex
        key.creationTs <;> simp

theorem accepted_iff :
    Accepted decode m roster message now ↔
      verifyOrigin m message = .ok () ∧ (∃ bytes, decode message.keyB64 = .ok bytes) ∧
        (∃ s, membershipOf roster message.memberId = some s ∧
          verifyAgainstMembership message.origin s = .ok ()) ∧
        isOutdated (cleanup m.keyBuffer now) message.memberId message.keyIndex now = false := by
  unfold Accepted receiveKey
  cases verifyOrigin m message with
  | error reason => simp
  | ok _ =>
      cases decode message.keyB64 with
      | error e => simp
      | ok bytes =>
          cases membershipOf roster message.memberId with
          | none => simp
          | some s => simp [acceptVerifiedKey_accepted_iff]

theorem membershipOf_membershipsOf {user memberId : String} {s : JoinedMembership}
    (h : membershipOf roster memberId = some s) (own : s.sender = user) :
    membershipOf (membershipsOf roster user) memberId = some s := by
  unfold membershipOf membershipsOf at *
  rw [List.find?_filter]
  induction roster with
  | nil => simp at h
  | cons first rest ih =>
      by_cases hid : first.memberId = memberId
      · simp only [List.find?_cons, hid, beq_self_eq_true] at h
        cases h
        simp [hid, own]
      · simp only [List.find?_cons, beq_eq_false_iff_ne.mpr hid] at h ⊢
        simpa using ih h

theorem not_accepted_of_shadowed {user : String} {device : Option String} {confirmed : Bool}
    {s : JoinedMembership} (origin : message.origin = .encrypted user device confirmed)
    (first : membershipOf roster message.memberId = some s) (other : s.sender ≠ user) :
    ¬ Accepted decode m roster message now := by
  rw [accepted_iff]
  rintro ⟨-, -, ⟨s', first', ok⟩, -⟩
  obtain rfl := Option.some.inj (first.symm.trans first')
  obtain ⟨user', device', confirmed', same, sender, -⟩ := verifyAgainstMembership_ok_iff.mp ok
  rw [origin] at same
  cases same
  exact other sender.symm

theorem rejectedAlone_iff {user device : String}
    (origin : message.origin = .encrypted user (some device) true)
    (listed : ∃ s ∈ roster, s.sender = user ∧ s.memberId = message.memberId) :
    RejectedAlone decode m roster message now user ↔
      ¬ Accepted decode m (membershipsOf roster user) message now := by
  obtain ⟨s, first⟩ : ∃ s, membershipOf (membershipsOf roster user) message.memberId = some s := by
    obtain ⟨s, hs, sender, hid⟩ := listed
    refine Option.isSome_iff_exists.mp (List.find?_isSome.mpr ⟨s, ?_, by simpa using hid⟩)
    exact List.mem_filter.mpr ⟨hs, by simpa using sender⟩
  have checked : verifyOrigin m message = .ok () ↔ message.roomId = m.roomId := by
    unfold verifyOrigin
    split_ifs with room
    · simp [room]
    · simpa [origin] using room
  rw [accepted_iff, checked]
  simp only [RejectedAlone, first, Option.mem_some_iff, exists_eq_left', Option.some.injEq,
    not_and_or, not_exists, Bool.not_eq_false, ne_eq]

end

/-- One sender cannot suppress another's key, exactly unless another user's
membership stands first under the member id of a message that would be accepted:
for a confirmed message from a user and device with a membership of their own under
the id, the receipt with the whole roster agrees with the receipt among the
sender's own memberships if and only if the first membership under the id is the
sender's, or the message is rejected with the sender's own memberships too. Which
device sent the sender's membership does not matter to this. -/
theorem key_not_suppressed_iff (decode : String → Except String (List UInt8))
    (m : EncryptionManager) (roster : List JoinedMembership) (message : ReceivedEncryptionKey)
    (now : ℕ) (user device : String) (own : JoinedMembership)
    (origin : message.origin = .encrypted user (some device) true) (listed : own ∈ roster)
    (sender : own.sender = user) (named : own.memberId = message.memberId) :
    (Accepted decode m roster message now ↔
        Accepted decode m (membershipsOf roster user) message now) ↔
      (∀ s ∈ membershipOf roster message.memberId, s.sender = user) ∨
        RejectedAlone decode m roster message now user := by
  obtain ⟨s, first⟩ : ∃ s, membershipOf roster message.memberId = some s :=
    Option.isSome_iff_exists.mp (List.find?_isSome.mpr ⟨own, listed, by simpa using named⟩)
  rw [rejectedAlone_iff origin ⟨own, listed, sender, named⟩]
  by_cases mine : s.sender = user
  · have same : Accepted decode m roster message now ↔
        Accepted decode m (membershipsOf roster user) message now := by
      rw [accepted_iff, accepted_iff, first, membershipOf_membershipsOf first mine]
    simp [same, first, mine]
  · have shadowed : ¬ Accepted decode m roster message now :=
      not_accepted_of_shadowed origin first mine
    simp [shadowed, first, mine]

section Concrete

def bobMember : JoinedMembership := callMembership "@bob:x" "B" "bob" "bob"

/-- Eve's membership, stating Bob's member id under a sticky key of her own. -/
def eveMember : JoinedMembership := callMembership "@eve:x" "E" "bob" "eve"

/-- Bob's membership listed before Eve's copy of its id. -/
theorem bobs_key_not_suppressed :
    Accepted decodeOne (.new alice) [bobMember, eveMember] bobsKey 5 ↔
      Accepted decodeOne (.new alice) (membershipsOf [bobMember, eveMember] "@bob:x") bobsKey 5 :=
  (key_not_suppressed_iff decodeOne (.new alice) [bobMember, eveMember] bobsKey 5 "@bob:x" "B"
    bobMember rfl (by decide) rfl rfl).mpr (Or.inl (by decide))

/-- Eve's copy of the id listed first: the key that is accepted among Bob's own
memberships is rejected with the roster. -/
theorem bobs_key_suppressed :
    ¬ (Accepted decodeOne (.new alice) [eveMember, bobMember] bobsKey 5 ↔
        Accepted decodeOne (.new alice) (membershipsOf [eveMember, bobMember] "@bob:x")
          bobsKey 5) := by
  unfold Accepted
  decide

end Concrete

end MatrixRtc.KeyAcceptance

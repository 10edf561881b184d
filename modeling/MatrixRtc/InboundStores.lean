import MatrixRtc.InboundKeys
import Mathlib.Data.List.Nodup

/-!
# What the inbound store holds

The bytes held for a member id at an index. Storing a key changes them there and nowhere
else, and is refused exactly where they are held already; so accepting a key that is verified
and not outdated is one update, and its emissions say whether the update changed anything.
-/
namespace MatrixRtc.InboundStores
open MemberEvents EncryptionManagers InboundKeys

/-- The inbound keys of one member id. -/
def heldKeys (inbound : List (String × List InboundEncryptionKey)) (memberId : String) :
    List InboundEncryptionKey :=
  (inbound.lookup memberId).getD []

def bytesAt (held : List InboundEncryptionKey) (index : UInt8) : Option (List UInt8) :=
  (held.find? fun k => k.keyIndex == index).map (·.key)

def heldAt (inbound : List (String × List InboundEncryptionKey)) (memberId : String)
    (index : UInt8) : Option (List UInt8) :=
  bytesAt (heldKeys inbound memberId) index

/-- The store with the key in it, whether it was held already or not. -/
def stored (inbound : List (String × List InboundEncryptionKey)) (key : InboundEncryptionKey) :
    List (String × List InboundEncryptionKey) :=
  (storeInbound inbound key).getD inbound

section Store
variable {held held' : List InboundEncryptionKey} {key : InboundEncryptionKey}
variable {inbound inbound' : List (String × List InboundEncryptionKey)}

theorem bytesAt_cons (first : InboundEncryptionKey) (index : UInt8) :
    bytesAt (first :: held) index =
      if first.keyIndex = index then some first.key else bytesAt held index := by
  unfold bytesAt
  by_cases same : first.keyIndex = index
  · rw [List.find?_cons_of_pos (by simp [same]), if_pos same]
    rfl
  · rw [List.find?_cons_of_neg (by simp [same]), if_neg same]

theorem storeHeld_eq_none : storeHeld held key = none ↔ bytesAt held key.keyIndex = some key.key := by
  induction held with
  | nil => simp [storeHeld, bytesAt]
  | cons first rest ih =>
      rw [storeHeld, bytesAt_cons]
      by_cases same : first.keyIndex = key.keyIndex
      · simp [same]
      · simp [same, ih]

theorem bytesAt_storeHeld (h : storeHeld held key = some held') (index : UInt8) :
    bytesAt held' index = if index = key.keyIndex then some key.key else bytesAt held index := by
  induction held generalizing held' with
  | nil =>
      cases h
      rw [bytesAt_cons]
      simp only [eq_comm]
  | cons first rest ih =>
      simp only [storeHeld] at h
      split_ifs at h with same
      · cases h
        rw [bytesAt_cons, bytesAt_cons, same]
        simp only [eq_comm]
        split_ifs <;> rfl
      · obtain ⟨rest', hr, rfl⟩ := Option.map_eq_some_iff.mp h
        rw [bytesAt_cons, bytesAt_cons, ih hr]
        by_cases at_key : index = key.keyIndex
        · rw [if_pos at_key, if_neg (at_key ▸ same), if_pos at_key]
        · rw [if_neg at_key, if_neg at_key]

/-- The indices after storing are those before, and perhaps the key's at the end. -/
theorem indices_storeHeld (h : storeHeld held key = some held') :
    held'.map (·.keyIndex) = held.map (·.keyIndex) ∨
      key.keyIndex ∉ held.map (·.keyIndex) ∧
        held'.map (·.keyIndex) = held.map (·.keyIndex) ++ [key.keyIndex] := by
  induction held generalizing held' with
  | nil =>
      cases h
      exact .inr ⟨List.not_mem_nil, rfl⟩
  | cons first rest ih =>
      simp only [storeHeld] at h
      split_ifs at h with same
      · cases h
        exact .inl (by simp [same])
      · obtain ⟨rest', hr, rfl⟩ := Option.map_eq_some_iff.mp h
        rcases ih hr with kept | ⟨new, added⟩
        · exact .inl (by simp [kept])
        · refine .inr ⟨?_, by simp [added]⟩
          rw [List.map_cons, List.mem_cons, not_or]
          exact ⟨Ne.symm same, new⟩

theorem storeHeld_nodup (h : storeHeld held key = some held')
    (distinct : (held.map (·.keyIndex)).Nodup) : (held'.map (·.keyIndex)).Nodup := by
  rcases indices_storeHeld h with kept | ⟨new, added⟩
  · rwa [kept]
  · rw [added, ← List.concat_eq_append]
    exact distinct.concat new

theorem heldKeys_cons (id : String) (memberId : String) :
    heldKeys ((id, held) :: inbound) memberId =
      if memberId = id then held else heldKeys inbound memberId := by
  unfold heldKeys
  by_cases same : memberId = id
  · simp [same]
  · rw [List.lookup_cons, beq_eq_false_iff_ne.mpr same, if_neg same]

theorem storeInbound_eq_none :
    storeInbound inbound key = none ↔ storeHeld (heldKeys inbound key.memberId) key = none := by
  induction inbound with
  | nil => simp [storeInbound, heldKeys, storeHeld]
  | cons first rest ih =>
      obtain ⟨id, held⟩ := first
      rw [storeInbound, heldKeys_cons]
      by_cases same : id = key.memberId
      · rw [if_pos same, if_pos same.symm, Option.map_eq_none_iff]
      · rw [if_neg same, if_neg (Ne.symm same), Option.map_eq_none_iff, ih]

theorem heldKeys_storeInbound (h : storeInbound inbound key = some inbound') :
    storeHeld (heldKeys inbound key.memberId) key = some (heldKeys inbound' key.memberId) ∧
      ∀ memberId, memberId ≠ key.memberId →
        heldKeys inbound' memberId = heldKeys inbound memberId := by
  induction inbound generalizing inbound' with
  | nil =>
      cases h
      refine ⟨by simp [heldKeys, storeHeld], fun memberId other => ?_⟩
      rw [heldKeys_cons, if_neg other]
  | cons first rest ih =>
      obtain ⟨id, held⟩ := first
      simp only [storeInbound] at h
      split_ifs at h with same
      · obtain ⟨held', hh, rfl⟩ := Option.map_eq_some_iff.mp h
        rw [heldKeys_cons, heldKeys_cons, if_pos same.symm, if_pos same.symm]
        refine ⟨hh, fun memberId other => ?_⟩
        rw [heldKeys_cons, heldKeys_cons, same, if_neg other, if_neg other]
      · obtain ⟨rest', hr, rfl⟩ := Option.map_eq_some_iff.mp h
        obtain ⟨at_key, others⟩ := ih hr
        rw [heldKeys_cons, heldKeys_cons, if_neg (Ne.symm same), if_neg (Ne.symm same)]
        refine ⟨at_key, fun memberId other => ?_⟩
        rw [heldKeys_cons, heldKeys_cons, others memberId other]

theorem storeInbound_eq_none_iff :
    storeInbound inbound key = none ↔
      heldAt inbound key.memberId key.keyIndex = some key.key := by
  rw [storeInbound_eq_none, storeHeld_eq_none, heldAt]

/-- The bytes at the key's own place are the key's, and no other place is touched. -/
theorem heldAt_stored (memberId : String) (index : UInt8) :
    heldAt (stored inbound key) memberId index =
      if memberId = key.memberId ∧ index = key.keyIndex then some key.key
      else heldAt inbound memberId index := by
  cases h : storeInbound inbound key with
  | none =>
      rw [stored, h, Option.getD_none]
      split_ifs with place
      · rw [place.1, place.2, storeInbound_eq_none_iff.mp h]
      · rfl
  | some inbound' =>
      obtain ⟨at_key, others⟩ := heldKeys_storeInbound h
      rw [stored, h, Option.getD_some, heldAt, heldAt]
      by_cases same : memberId = key.memberId
      · subst same
        rw [bytesAt_storeHeld at_key]
        simp
      · rw [others memberId same, if_neg (fun place => same place.1)]

theorem stored_nodup (memberId : String)
    (distinct : ((heldKeys inbound memberId).map (·.keyIndex)).Nodup) :
    ((heldKeys (stored inbound key) memberId).map (·.keyIndex)).Nodup := by
  cases h : storeInbound inbound key with
  | none => rwa [stored, h, Option.getD_none]
  | some inbound' =>
      obtain ⟨at_key, others⟩ := heldKeys_storeInbound h
      rw [stored, h, Option.getD_some]
      by_cases same : memberId = key.memberId
      · subst same
        exact storeHeld_nodup at_key distinct
      · rwa [others memberId same]

end Store

/-- The emissions of a key that is accepted: none where its bytes are held. -/
def acceptedEmissions (m : EncryptionManager) (key : InboundEncryptionKey) (origin : KeyOrigin)
    (s : JoinedMembership) : List Emission :=
  if heldAt m.inboundKeys key.memberId key.keyIndex = some key.key then []
  else .stored key origin :: inboundSignal m key s

theorem addKeyToParticipant_eq (m : EncryptionManager) (key : InboundEncryptionKey)
    (origin : KeyOrigin) (s : JoinedMembership) :
    addKeyToParticipant m key origin s =
      ({ m with inboundKeys := stored m.inboundKeys key }, acceptedEmissions m key origin s) := by
  unfold addKeyToParticipant acceptedEmissions
  cases h : storeInbound m.inboundKeys key with
  | none => simp only [stored, h, Option.getD_none, if_pos (storeInbound_eq_none_iff.mp h)]
  | some inbound =>
      have new : heldAt m.inboundKeys key.memberId key.keyIndex ≠ some key.key :=
        fun held => nomatch h.symm.trans (storeInbound_eq_none_iff.mpr held)
      simp only [stored, h, Option.getD_some, if_neg new]
      rfl

theorem acceptVerifiedKey_eq {m : EncryptionManager} {key : InboundEncryptionKey}
    {origin : KeyOrigin} {s : JoinedMembership}
    (verified : verifyAgainstMembership origin s = .ok ())
    (current : isOutdated (cleanup m.keyBuffer key.creationTs) key.memberId key.keyIndex
      key.creationTs = false) :
    acceptVerifiedKey m key origin s =
      ({ m with
        keyBuffer :=
          (checkAndAdd (cleanup m.keyBuffer key.creationTs) key.memberId key.keyIndex
            key.creationTs).1
        inboundKeys := stored m.inboundKeys key }, .accepted,
        acceptedEmissions m key origin s) := by
  rw [acceptVerifiedKey, verified]
  simp only [checkAndAdd, current, Bool.false_eq_true, if_false, addKeyToParticipant_eq]
  rfl

end MatrixRtc.InboundStores

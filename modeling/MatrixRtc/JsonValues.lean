import Mathlib.Data.List.Basic
import MatrixRtc.ListPlaces

/-!
# JSON values

The part of `serde_json::Value` the program reads, with the string operations it
applies to the texts in it. An object keeps its fields in a list with the first
entry for a key counting, which is how `get` reads it; `serde_json`'s own map sorts
its keys, and nothing in the program depends on their order. Integers are those of
`as_u64` and of the negative range; every other number is kept by its bits and never
inspected.
-/
namespace MatrixRtc.JsonValues

inductive Number where
  | posInt (n : ℕ)
  | negInt (n : ℕ)
  | float (bits : UInt64)
deriving DecidableEq, Repr

inductive Json where
  | null
  | bool (b : Bool)
  | num (n : Number)
  | str (s : String)
  | arr (xs : List Json)
  | obj (fields : List (String × Json))
deriving Repr

namespace Json

mutual
/-- Equality of values, decided along the value's own structure. -/
def decEq : (a b : Json) → Decidable (a = b)
  | .null, .null => isTrue rfl
  | .bool a, .bool b => decidable_of_iff (a = b) (by simp)
  | .num a, .num b => decidable_of_iff (a = b) (by simp)
  | .str a, .str b => decidable_of_iff (a = b) (by simp)
  | .arr a, .arr b => match decEqList a b with
    | isTrue h => isTrue (by rw [h])
    | isFalse h => isFalse (by simpa using h)
  | .obj a, .obj b => match decEqFields a b with
    | isTrue h => isTrue (by rw [h])
    | isFalse h => isFalse (by simpa using h)
  | .null, .bool _ | .null, .num _ | .null, .str _ | .null, .arr _ | .null, .obj _
  | .bool _, .null | .bool _, .num _ | .bool _, .str _ | .bool _, .arr _ | .bool _, .obj _
  | .num _, .null | .num _, .bool _ | .num _, .str _ | .num _, .arr _ | .num _, .obj _
  | .str _, .null | .str _, .bool _ | .str _, .num _ | .str _, .arr _ | .str _, .obj _
  | .arr _, .null | .arr _, .bool _ | .arr _, .num _ | .arr _, .str _ | .arr _, .obj _
  | .obj _, .null | .obj _, .bool _ | .obj _, .num _ | .obj _, .str _ | .obj _, .arr _ =>
    isFalse (by simp)

def decEqList : (a b : List Json) → Decidable (a = b)
  | [], [] => isTrue rfl
  | [], _ :: _ | _ :: _, [] => isFalse (by simp)
  | a :: as, b :: bs => match decEq a b, decEqList as bs with
    | isTrue h, isTrue hs => isTrue (by rw [h, hs])
    | isFalse h, _ => isFalse (by simp [h])
    | _, isFalse hs => isFalse (by simp [hs])

def decEqFields : (a b : List (String × Json)) → Decidable (a = b)
  | [], [] => isTrue rfl
  | [], _ :: _ | _ :: _, [] => isFalse (by simp)
  | (k, a) :: as, (l, b) :: bs => match decEq a b, decEqFields as bs with
    | isTrue h, isTrue hs => decidable_of_iff (k = l) (by simp [h, hs])
    | isFalse h, _ => isFalse (by simp [h])
    | _, isFalse hs => isFalse (by simp [hs])
end

instance : DecidableEq Json := decEq

def asStr : Json → Option String
  | .str s => some s
  | _ => none

def asArray : Json → Option (List Json)
  | .arr xs => some xs
  | _ => none

def asObject : Json → Option (List (String × Json))
  | .obj fields => some fields
  | _ => none

/-- `Value::as_u64`. -/
def asU64 : Json → Option ℕ
  | .num (.posInt n) => some n
  | _ => none

/-- `Value::get` with a string key. -/
def get (v : Json) (key : String) : Option Json :=
  v.asObject.bind fun fields => fields.lookup key

end Json

/-- `str::starts_with`. -/
def startsWith (s start : String) : Bool := start.toList.isPrefixOf s.toList

/-- `str::strip_suffix`. -/
def stripSuffix (s suffix : String) : Option String :=
  if suffix.toList.isSuffixOf s.toList then
    some (String.ofList (s.toList.take (s.toList.length - suffix.toList.length)))
  else none

/-- `Map::insert`: the value under `key` is replaced, or the field is added. -/
def setField (fields : List (String × Json)) (key : String) (v : Json) : List (String × Json) :=
  (key, v) :: fields.filter fun f => f.1 != key

@[simp] theorem lookup_setField_self (fields : List (String × Json)) (key : String) (v : Json) :
    (setField fields key v).lookup key = some v := by
  simp [setField]

theorem lookup_setField_ne {fields : List (String × Json)} {key other : String} {v : Json}
    (h : other ≠ key) : (setField fields key v).lookup other = fields.lookup other := by
  have ho : (other == key) = false := by simpa using h
  simp [setField, List.lookup_cons, ho, ListPlaces.lookup_filter_ne h]

end MatrixRtc.JsonValues

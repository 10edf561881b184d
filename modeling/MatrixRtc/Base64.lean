import Mathlib.Data.List.Basic

/-!
# Standard base64

Bytes in groups of three as digits of the standard alphabet, with and without padding, and the
decoder that takes canonically padded input alone. Nothing here names a particular use.
-/
namespace MatrixRtc.Base64

def alphabet : List Char :=
  "ABCDEFGHIJKLMNOPQRSTUVWXYZabcdefghijklmnopqrstuvwxyz0123456789+/".toList

def digit (n : ℕ) : Char := alphabet.getD n '='

def valueOf (c : Char) : Option ℕ := alphabet.idxOf? c

/-- Six bits a digit, from the first byte on; the last digit is filled with zero bits. -/
def digitsOf : List UInt8 → List ℕ
  | a :: b :: c :: rest =>
      a.toNat / 4 :: (a.toNat % 4 * 16 + b.toNat / 16) :: (b.toNat % 16 * 4 + c.toNat / 64) ::
        c.toNat % 64 :: digitsOf rest
  | [a, b] => [a.toNat / 4, a.toNat % 4 * 16 + b.toNat / 16, b.toNat % 16 * 4]
  | [a] => [a.toNat / 4, a.toNat % 4 * 16]
  | [] => []

/-- What fills the last group of four characters. -/
def padding (bytes : List UInt8) : List Char := List.replicate ((3 - bytes.length % 3) % 3) '='

def unpadded (bytes : List UInt8) : String := String.ofList ((digitsOf bytes).map digit)

def padded (bytes : List UInt8) : String :=
  String.ofList ((digitsOf bytes).map digit ++ padding bytes)

theorem unpadded_eq_padded_iff {bytes : List UInt8} :
    unpadded bytes = padded bytes ↔ bytes.length % 3 = 0 := by
  rw [unpadded, padded, String.ofList_inj, List.self_eq_append_right, padding,
    List.replicate_eq_nil_iff]
  omega

/-- The bytes of the digits of one group. -/
def group (a b c d : ℕ) : List UInt8 :=
  [UInt8.ofNat (a * 4 + b / 16), UInt8.ofNat (b % 16 * 16 + c / 4), UInt8.ofNat (c % 4 * 64 + d)]

def decodeChars : List Char → Option (List UInt8)
  | a :: b :: c :: d :: rest => do
      let a ← valueOf a
      let b ← valueOf b
      if c = '=' ∧ d = '=' ∧ rest = [] then return (group a b 0 0).take 1
      let c ← valueOf c
      if d = '=' ∧ rest = [] then return (group a b c 0).take 2
      let d ← valueOf d
      return group a b c d ++ (← decodeChars rest)
  | [] => some []
  | _ => none

/-- What is decoded is written back: filling bits that are not zero are no input. -/
def decode (s : String) : Except String (List UInt8) :=
  match decodeChars s.toList with
  | none => .error "Invalid input"
  | some bytes => if padded bytes = s then .ok bytes else .error "Invalid last symbol"

theorem valueOf_digit : ∀ n < 64, valueOf (digit n) = some n := by decide +kernel

theorem digit_ne_padding : ∀ n < 64, digit n ≠ '=' := by decide +kernel

theorem byte_lt (a : UInt8) : a.toNat < 256 := a.toNat_lt

theorem group_digits (a b c : UInt8) :
    group (a.toNat / 4) (a.toNat % 4 * 16 + b.toNat / 16) (b.toNat % 16 * 4 + c.toNat / 64)
      (c.toNat % 64) = [a, b, c] := by
  have ha := byte_lt a
  have hb := byte_lt b
  have hc := byte_lt c
  have first : a.toNat / 4 * 4 + (a.toNat % 4 * 16 + b.toNat / 16) / 16 = a.toNat := by omega
  have second : (a.toNat % 4 * 16 + b.toNat / 16) % 16 * 16 +
      (b.toNat % 16 * 4 + c.toNat / 64) / 4 = b.toNat := by omega
  have third : (b.toNat % 16 * 4 + c.toNat / 64) % 4 * 64 + c.toNat % 64 = c.toNat := by omega
  rw [group, first, second, third]
  simp only [UInt8.ofNat_toNat]

theorem decodeChars_group {a b c d : ℕ} (ha : a < 64) (hb : b < 64) (hc : c < 64) (hd : d < 64)
    (rest : List Char) :
    decodeChars (digit a :: digit b :: digit c :: digit d :: rest) =
      (decodeChars rest).map (group a b c d ++ ·) := by
  rw [decodeChars]
  simp only [valueOf_digit, ha, hb, hc, hd, digit_ne_padding, false_and, if_false]
  cases decodeChars rest <;> rfl

theorem decodeChars_padded (bytes : List UInt8) :
    decodeChars ((digitsOf bytes).map digit ++ padding bytes) = some bytes := by
  induction bytes using digitsOf.induct with
  | case1 a b c rest ih =>
      have hb := byte_lt b
      have hc := byte_lt c
      have ha := byte_lt a
      have pads : padding (a :: b :: c :: rest) = padding rest := by
        simp only [padding, List.length_cons]
        congr 1
        omega
      simp only [digitsOf, pads, List.map_cons, List.cons_append]
      rw [decodeChars_group (by omega) (by omega) (by omega) (by omega), ih, group_digits]
      rfl
  | case2 a b =>
      have ha := byte_lt a
      have hb := byte_lt b
      have read := group_digits a b 0
      simp only [UInt8.toNat_zero, Nat.zero_div, Nat.zero_mod, Nat.add_zero] at read
      change decodeChars [digit _, digit _, digit _, '='] = _
      rw [decodeChars]
      simp only [valueOf_digit _ (show a.toNat / 4 < 64 by omega),
        valueOf_digit _ (show a.toNat % 4 * 16 + b.toNat / 16 < 64 by omega),
        valueOf_digit _ (show b.toNat % 16 * 4 < 64 by omega),
        digit_ne_padding _ (show b.toNat % 16 * 4 < 64 by omega), false_and, if_false]
      simp [read]
  | case3 a =>
      have ha := byte_lt a
      have read := group_digits a 0 0
      simp only [UInt8.toNat_zero, Nat.zero_div, Nat.zero_mod, Nat.add_zero, Nat.zero_mul] at read
      change decodeChars [digit _, digit _, '=', '='] = _
      rw [decodeChars]
      simp only [valueOf_digit _ (show a.toNat / 4 < 64 by omega),
        valueOf_digit _ (show a.toNat % 4 * 16 < 64 by omega)]
      simp [read]
  | case4 => rfl

theorem decode_eq_ok_iff {s : String} {bytes : List UInt8} :
    decode s = .ok bytes ↔ s = padded bytes := by
  unfold decode
  constructor
  · intro h
    split at h
    · cases h
    · split_ifs at h with same
      cases h
      exact same.symm
  · rintro rfl
    rw [padded, String.toList_ofList, decodeChars_padded]
    exact if_pos rfl

end MatrixRtc.Base64

import Mathlib

/-!
# Base64

This states the standard alphabet of RFC 4648 with padding, section 4, which
`base64::STANDARD` documents as what it encodes to and decodes.  Three bytes
are four digits of six bits; what is left at the end is padded to four.
Decoding accepts this form only: the padding must be there, and the bits it
cuts off must be zero.
-/

namespace OpenAirplay2.Lib.Base64

/-- The sign that fills up the last group. -/
def pad : UInt8 := 0x3d

/-- The sign for six bits. -/
def digit (bits : Nat) : UInt8 :=
  if bits < 26 then UInt8.ofNat (0x41 + bits)
  else if bits < 52 then UInt8.ofNat (0x61 + (bits - 26))
  else if bits < 62 then UInt8.ofNat (0x30 + (bits - 52))
  else if bits = 62 then 0x2b
  else 0x2f

/-- The six bits of a sign. -/
def value (sign : UInt8) : Option Nat :=
  if 0x41 ≤ sign && sign ≤ 0x5a then some (sign.toNat - 0x41)
  else if 0x61 ≤ sign && sign ≤ 0x7a then some (sign.toNat - 0x61 + 26)
  else if 0x30 ≤ sign && sign ≤ 0x39 then some (sign.toNat - 0x30 + 52)
  else if sign = 0x2b then some 62
  else if sign = 0x2f then some 63
  else none

@[simp]
theorem value_digit {bits : Nat} (small : bits < 64) :
    value (digit bits) = some bits := by
  have all : ∀ bits : Fin 64, value (digit bits) = some bits.val := by
    decide
  exact all ⟨bits, small⟩

theorem value_pad : value pad = none := by
  decide

theorem digit_ne_pad {bits : Nat} (small : bits < 64) :
    digit bits ≠ pad := by
  intro same
  have found := value_digit small
  rw [same, value_pad] at found
  cases found

/-- The four signs of three bytes. -/
def group (first second third : UInt8) : List UInt8 :=
  [digit (first.toNat / 4),
    digit (first.toNat % 4 * 16 + second.toNat / 16),
    digit (second.toNat % 16 * 4 + third.toNat / 64),
    digit (third.toNat % 64)]

def encode : List UInt8 → List UInt8
  | [] => []
  | [first] =>
      [digit (first.toNat / 4), digit (first.toNat % 4 * 16), pad, pad]
  | [first, second] =>
      [digit (first.toNat / 4),
        digit (first.toNat % 4 * 16 + second.toNat / 16),
        digit (second.toNat % 16 * 4), pad]
  | first :: second :: third :: rest =>
      group first second third ++ encode rest

/-- Three bytes from the values of four signs. -/
def bytes (first second third fourth : Nat) : List UInt8 :=
  [UInt8.ofNat (first * 4 + second / 16),
    UInt8.ofNat (second % 16 * 16 + third / 4),
    UInt8.ofNat (third % 4 * 64 + fourth)]

/-- The last group, which may be padded. -/
def decodeLast (first second third fourth : UInt8) :
    Option (List UInt8) := do
  let high ← value first
  let next ← value second
  if fourth = pad then
    if third = pad then
      if next % 16 = 0 then some ((bytes high next 0 0).take 1) else none
    else
      let low ← value third
      if low % 4 = 0 then some ((bytes high next low 0).take 2) else none
  else
    let low ← value third
    let last ← value fourth
    some (bytes high next low last)

def decode : List UInt8 → Option (List UInt8)
  | [] => some []
  | first :: second :: third :: fourth :: rest =>
      if rest.isEmpty then
        decodeLast first second third fourth
      else do
        let high ← value first
        let next ← value second
        let low ← value third
        let last ← value fourth
        let more ← decode rest
        some (bytes high next low last ++ more)
  | _ => none

/-! ## The round trip -/

section RoundTrip

variable (first second third : UInt8)

/-- The bytes come back from the signs of a group. -/
theorem bytes_group :
    bytes (first.toNat / 4)
        (first.toNat % 4 * 16 + second.toNat / 16)
        (second.toNat % 16 * 4 + third.toNat / 64)
        (third.toNat % 64) =
      [first, second, third] := by
  have firstBound := first.toNat_lt
  have secondBound := second.toNat_lt
  have thirdBound := third.toNat_lt
  have back (byte : UInt8) (number : Nat) (same : number = byte.toNat) :
      UInt8.ofNat number = byte := by
    rw [same, UInt8.ofNat_toNat]
  rw [bytes, back first _ (by omega), back second _ (by omega),
    back third _ (by omega)]

theorem decodeLast_group :
    decodeLast (digit (first.toNat / 4))
        (digit (first.toNat % 4 * 16 + second.toNat / 16))
        (digit (second.toNat % 16 * 4 + third.toNat / 64))
        (digit (third.toNat % 64)) =
      some [first, second, third] := by
  have firstBound := first.toNat_lt
  have secondBound := second.toNat_lt
  have thirdBound := third.toNat_lt
  have whole : digit (third.toNat % 64) ≠ pad := digit_ne_pad (by omega)
  rw [decodeLast, value_digit (by omega), value_digit (by omega),
    value_digit (by omega), value_digit (by omega)]
  simp only [Option.bind_eq_bind, Option.bind_some, if_neg whole]
  rw [bytes_group]

theorem decodeLast_two :
    decodeLast (digit (first.toNat / 4))
        (digit (first.toNat % 4 * 16 + second.toNat / 16))
        (digit (second.toNat % 16 * 4)) pad =
      some [first, second] := by
  have firstBound := first.toNat_lt
  have secondBound := second.toNat_lt
  have half : digit (second.toNat % 16 * 4) ≠ pad :=
    digit_ne_pad (by omega)
  have cut := bytes_group first second 0
  simp only [UInt8.toNat_zero, Nat.zero_div, Nat.zero_mod,
    Nat.add_zero] at cut
  rw [decodeLast, value_digit (by omega), value_digit (by omega),
    value_digit (by omega)]
  simp only [Option.bind_eq_bind, Option.bind_some, if_true, if_neg half,
    Nat.mul_mod_left, cut]
  rfl

theorem decodeLast_one :
    decodeLast (digit (first.toNat / 4)) (digit (first.toNat % 4 * 16))
        pad pad =
      some [first] := by
  have firstBound := first.toNat_lt
  have cut := bytes_group first 0 0
  simp only [UInt8.toNat_zero, Nat.zero_div, Nat.zero_mod, Nat.zero_mul,
    Nat.add_zero] at cut
  rw [decodeLast, value_digit (by omega), value_digit (by omega)]
  simp only [Option.bind_eq_bind, Option.bind_some, if_true,
    Nat.mul_mod_left, cut]
  rfl

end RoundTrip

theorem encode_eq_nil_iff {input : List UInt8} :
    encode input = [] ↔ input = [] := by
  fun_cases encode input <;> simp [group]

theorem decode_encode (input : List UInt8) :
    decode (encode input) = some input := by
  fun_induction encode input with
  | case1 => rfl
  | case2 first => exact decodeLast_one first
  | case3 first second => exact decodeLast_two first second
  | case4 first second third rest induction =>
      rw [group, List.cons_append, List.cons_append, List.cons_append,
        List.cons_append, List.nil_append, decode]
      split
      · next ends =>
          rw [List.isEmpty_iff, encode_eq_nil_iff] at ends
          rw [ends]
          exact decodeLast_group first second third
      · have firstBound := first.toNat_lt
        have secondBound := second.toNat_lt
        have thirdBound := third.toNat_lt
        rw [value_digit (by omega), value_digit (by omega),
          value_digit (by omega), value_digit (by omega), induction]
        show some (bytes _ _ _ _ ++ rest) = _
        rw [bytes_group]
        rfl

/-- Only digits and padding are written. -/
theorem mem_encode
    {input : List UInt8} {sign : UInt8}
    (member : sign ∈ encode input) :
    sign = pad ∨ (value sign).isSome := by
  have isDigit {bits : Nat} (small : bits < 64) :
      digit bits = pad ∨ (value (digit bits)).isSome := by
    rw [value_digit small]
    exact Or.inr rfl
  fun_induction encode input with
  | case1 => cases member
  | case2 first =>
      have firstBound := first.toNat_lt
      simp only [List.mem_cons, List.not_mem_nil, or_false] at member
      rcases member with rfl | rfl | rfl | rfl
      · exact isDigit (by omega)
      · exact isDigit (by omega)
      · exact Or.inl rfl
      · exact Or.inl rfl
  | case3 first second =>
      have firstBound := first.toNat_lt
      have secondBound := second.toNat_lt
      simp only [List.mem_cons, List.not_mem_nil, or_false] at member
      rcases member with rfl | rfl | rfl | rfl
      · exact isDigit (by omega)
      · exact isDigit (by omega)
      · exact isDigit (by omega)
      · exact Or.inl rfl
  | case4 first second third rest induction =>
      have firstBound := first.toNat_lt
      have secondBound := second.toNat_lt
      have thirdBound := third.toNat_lt
      simp only [group, List.mem_append, List.mem_cons, List.not_mem_nil,
        or_false] at member
      rcases member with (rfl | rfl | rfl | rfl) | later
      · exact isDigit (by omega)
      · exact isDigit (by omega)
      · exact isDigit (by omega)
      · exact isDigit (by omega)
      · exact induction later

example :
    (encode [0x66, 0x6f, 0x6f, 0x62]).map (Char.ofNat ·.toNat) =
      "Zm9vYg==".toList := by
  decide

end OpenAirplay2.Lib.Base64

import Mathlib

/-!
# Hexadecimal digits

Numbers without leading zeros, bytes of two digits each, and the readers of
both.  What is written in either case is read back, and is written of one
number only.
-/

namespace OpenAirplay2.Lib.Hex

/-! ## Digits -/

/-- A digit, in upper or in lower case. -/
def digit (upper : Bool) (value : Nat) : Char :=
  if value < 10 then Char.ofNat (48 + value)
  else if upper then Char.ofNat (55 + value)
  else Char.ofNat (87 + value)

/-- `char::to_digit` at 16. -/
def value (char : Char) : Option Nat :=
  if '0' ≤ char ∧ char ≤ '9' then some (char.toNat - '0'.toNat)
  else if 'a' ≤ char ∧ char ≤ 'f' then
    some (char.toNat - 'a'.toNat + 10)
  else if 'A' ≤ char ∧ char ≤ 'F' then
    some (char.toNat - 'A'.toNat + 10)
  else none

/-- The number some values are the digits of. -/
def ofValues (values : List Nat) : Nat :=
  values.foldl (fun number value => number * 16 + value) 0

/-- The number some digits stand for. -/
def read (text : List Char) : Option Nat :=
  if text.isEmpty then none else (text.mapM value).map ofValues

/-- `u8::from_str_radix` at 16, which takes a sign. -/
def fromStrRadix16 (text : String) : Option UInt8 :=
  let digits :=
    match text.toList with
    | '+' :: rest => rest
    | all => all
  (read digits).bind fun number =>
    if number < 2 ^ 8 then some (UInt8.ofNat number) else none

theorem value_digit (upper : Bool) :
    ∀ number < 16, value (digit upper number) = some number := by
  cases upper <;> decide

theorem mapM_value_digits
    (upper : Bool) {values : List Nat}
    (small : ∀ value ∈ values, value < 16) :
    (values.map (digit upper)).mapM value = some values := by
  induction values with
  | nil => rfl
  | cons first rest induction =>
      have isFirst := value_digit upper first (small first (by simp))
      have isRest :=
        induction fun value isValue =>
          small value (List.mem_cons_of_mem _ isValue)
      simp [isFirst, isRest]

/-- Digits of both cases are read alike. -/
theorem read_digits
    (upper : Bool) {values : List Nat} (some : values ≠ [])
    (small : ∀ value ∈ values, value < 16) :
    read (values.map (digit upper)) = .some (ofValues values) := by
  rw [read, if_neg (by simpa using some), mapM_value_digits upper small]
  rfl

/-! ## Numbers -/

/-- The format `{:X}` or `{:x}` of a number. -/
def format (upper : Bool) (number : Nat) : List Char :=
  if number = 0 then [digit upper 0]
  else (Nat.digits 16 number).reverse.map (digit upper)

theorem ofValues_reverse (values : List Nat) :
    ofValues values.reverse = Nat.ofDigits 16 values := by
  rw [ofValues, List.foldl_reverse, Nat.ofDigits_eq_foldr]
  congr 1
  funext digit number
  rw [Nat.cast_id]
  ring

@[simp]
theorem read_format (upper : Bool) (number : Nat) :
    read (format upper number) = some number := by
  rw [format]
  by_cases zero : number = 0
  · rw [if_pos zero, zero]
    exact read_digits upper (List.cons_ne_nil 0 []) (by simp)
  · rw [if_neg zero, read_digits upper, ofValues_reverse,
      Nat.ofDigits_digits]
    · rw [Ne, List.reverse_eq_nil_iff]
      exact Nat.digits_ne_nil_iff_ne_zero.mpr zero
    · intro value isValue
      rw [List.mem_reverse] at isValue
      exact Nat.digits_lt_base (by decide) isValue

theorem mem_format
    {upper : Bool} {number : Nat} {char : Char}
    (isChar : char ∈ format upper number) :
    ∃ value < 16, char = digit upper value := by
  rw [format] at isChar
  split_ifs at isChar
  · exact ⟨0, by decide, List.mem_singleton.mp isChar⟩
  · rcases List.mem_map.mp isChar with ⟨value, isValue, rfl⟩
    rw [List.mem_reverse] at isValue
    exact ⟨value, Nat.digits_lt_base (by decide) isValue, rfl⟩

theorem length_format
    (upper : Bool) {number count : Nat} (positive : 0 < count)
    (bound : number < 16 ^ count) :
    (format upper number).length ≤ count := by
  rw [format]
  split_ifs with zero
  · exact positive
  · rw [List.length_map, List.length_reverse]
    exact (Nat.digits_length_le_iff (by decide) number).mpr bound

/-! ## Bytes -/

/-- The format `{:02X}` or `{:02x}` of a byte. -/
def pair (upper : Bool) (byte : UInt8) : List Char :=
  [digit upper (byte.toNat / 16), digit upper (byte.toNat % 16)]

/-- The digits of some bytes, two of each. -/
def encode (upper : Bool) (bytes : List UInt8) : List Char :=
  bytes.flatMap (pair upper)

/-- The bytes of an even number of digits. -/
def decode : List Char → Option (List UInt8)
  | [] => some []
  | first :: second :: rest =>
      (value first).bind fun high =>
        (value second).bind fun low =>
          (decode rest).map (UInt8.ofNat (high * 16 + low) :: ·)
  | [_] => none

@[simp]
theorem read_pair (upper : Bool) (byte : UInt8) :
    read (pair upper byte) = some byte.toNat := by
  have bound := byte.toNat_lt
  have isRead :=
    read_digits upper (List.cons_ne_nil (byte.toNat / 16) [byte.toNat % 16])
      (by simp; omega)
  have whole : ofValues [byte.toNat / 16, byte.toNat % 16] = byte.toNat := by
    simp only [ofValues, List.foldl_cons, List.foldl_nil]
    omega
  rw [whole] at isRead
  exact isRead

/-- A byte is read back from its two digits. -/
theorem fromStrRadix16_pair (upper : Bool) (byte : UInt8) :
    fromStrRadix16 (String.ofList (pair upper byte)) = some byte := by
  have bound := byte.toNat_lt
  have noSign :
      ∀ number < 16, digit upper number ≠ '+' := by
    cases upper <;> decide
  have isRead := read_pair upper byte
  simp only [fromStrRadix16, String.toList_ofList]
  rw [pair] at isRead ⊢
  split
  · next rest signed =>
      exact absurd (List.cons.inj signed).1 (noSign _ (by omega))
  · rw [isRead, Option.bind_some, if_pos bound, UInt8.ofNat_toNat]

theorem mem_pair
    {upper : Bool} {byte : UInt8} {char : Char}
    (isChar : char ∈ pair upper byte) :
    ∃ value < 16, char = digit upper value := by
  have bound := byte.toNat_lt
  simp only [pair, List.mem_cons, List.not_mem_nil, or_false] at isChar
  rcases isChar with isHigh | isLow
  · exact ⟨_, by omega, isHigh⟩
  · exact ⟨_, by omega, isLow⟩

theorem length_encode (upper : Bool) (bytes : List UInt8) :
    (encode upper bytes).length = 2 * bytes.length := by
  induction bytes with
  | nil => rfl
  | cons byte rest induction =>
      rw [encode, List.flatMap_cons, List.length_append]
      show (pair upper byte).length + (encode upper rest).length = _
      rw [induction, List.length_cons, Nat.mul_add, Nat.add_comm]
      rfl

@[simp]
theorem decode_encode (upper : Bool) (bytes : List UInt8) :
    decode (encode upper bytes) = some bytes := by
  induction bytes with
  | nil => rfl
  | cons byte rest induction =>
      have bound := byte.toNat_lt
      show decode (digit upper (byte.toNat / 16) ::
        digit upper (byte.toNat % 16) :: encode upper rest) = _
      rw [decode, value_digit upper _ (by omega), Option.bind_some,
        value_digit upper _ (by omega), Option.bind_some, induction,
        Option.map_some]
      have whole :
          byte.toNat / 16 * 16 + byte.toNat % 16 = byte.toNat := by
        omega
      rw [whole, UInt8.ofNat_toNat]

/-- Only digits are decoded. -/
theorem value_of_decode
    {text : List Char} {bytes : List UInt8}
    (decoded : decode text = some bytes) :
    ∀ char ∈ text, (value char).isSome := by
  induction text using decode.induct generalizing bytes with
  | case1 => exact fun _ isChar => nomatch isChar
  | case2 first second rest induction =>
      simp only [decode, Option.bind_eq_some_iff, Option.map_eq_some_iff]
        at decoded
      rcases decoded with ⟨high, isHigh, low, isLow, others, isRest, _⟩
      intro char isChar
      rcases List.mem_cons.mp isChar with rfl | later
      · rw [isHigh]
        rfl
      · rcases List.mem_cons.mp later with rfl | latest
        · rw [isLow]
          rfl
        · exact induction isRest char latest
  | case3 => cases decoded

theorem mem_encode
    {upper : Bool} {bytes : List UInt8} {char : Char}
    (isChar : char ∈ encode upper bytes) :
    ∃ value < 16, char = digit upper value := by
  rcases List.mem_flatMap.mp isChar with ⟨byte, _, isDigit⟩
  exact mem_pair isDigit

end OpenAirplay2.Lib.Hex
